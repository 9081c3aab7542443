import Lhre.Bevo.Publishd
import Lhre.Theory.Steps

/-!
# `Bevo.Correctness.PacketIds` — published packet ids never repeat

The ids on their way to the server only grow as long as `cand` numbers on. A new life of `cand` numbers from the
semaphore, so the ids keep growing when the seed it finds there is above every id already on its way. `publishd` sees to
that by writing a new seed when it starts; nothing does when `cand` starts alone.

## Contents
- **The condition.** `OnTheWay`, `Careful`.
- **The invariant.** `Growing`, one step, and `packet_ids_increase`.
- **A restart of `cand` alone.**
-/

namespace Lhre.Bevo

open Machine

/-- The ids that have been forwarded, and after them the ones `publishd` has yet to read. -/
def PublishState.onTheWay (s : PublishState) : List ℕ := s.forwarded ++ s.pipe

/-- A step under which ids keep growing. A cycle that finds the semaphore finds a seed above every id that has been
    forwarded or is in the stream, and a cycle that sends has an id left that an `i64` can hold. -/
def Careful (s : PublishState) : PublishEvent → Prop
  | .cycle sent =>
      (s.cand = some none → ∀ seed ∈ s.startPacketId, ∀ packetId ∈ s.onTheWay, packetId < seed) ∧
        (sent = true → ∀ packetId ∈ s.cand.join, packetId ≤ i64Max)
  | _ => True

/-- The ids on their way grow, and the next one of `cand` is above them. -/
structure Growing (s : PublishState) : Prop where
  increasing : s.onTheWay.Pairwise (· < ·)
  next : ∀ packetId, s.cand = some (some packetId) → ∀ old ∈ s.onTheWay, old < packetId

section Growing

variable {s t : PublishState}

/-- A step that changes neither the ids on their way nor the count of `cand`. -/
theorem Growing.congr (h : Growing s) (hway : t.onTheWay = s.onTheWay)
    (hcand : ∀ packetId, t.cand = some (some packetId) → s.cand = some (some packetId)) : Growing t := by
  refine ⟨hway ▸ h.increasing, ?_⟩
  intro packetId hnext
  rw [hway]
  exact h.next packetId (hcand packetId hnext)

/-- A step that loses ids of the stream. -/
theorem Growing.sublist (h : Growing s) (hway : t.onTheWay.Sublist s.onTheWay) (hcand : t.cand = s.cand) :
    Growing t := by
  refine ⟨h.increasing.sublist hway, ?_⟩
  intro packetId hnext old hold
  exact h.next packetId (hcand ▸ hnext) old (hway.subset hold)

/-- **A cycle of `cand`.** -/
theorem Growing.cycle (h : Growing s) {sent : Bool} {next : Option ℕ} (hcand : s.cand = some next)
    (hcareful : Careful s (.cycle sent)) : Growing (s.cycle sent next) := by
  obtain ⟨hseed, hfits⟩ := hcareful
  cases next with
  | none =>
      refine ⟨h.increasing, ?_⟩
      intro packetId hnext
      have hstart : s.startPacketId = some packetId := Option.some.inj hnext
      exact hseed hcand packetId hstart
  | some packetId =>
      unfold PublishState.cycle
      cases sent with
      | false => exact h
      | true =>
          -- while ids fit in the server's column neither the clamp nor the saturation changes one
          have hle : packetId ≤ i64Max := hfits rfl packetId (by rw [hcand]; rfl)
          have hbelow : ∀ old ∈ s.onTheWay, old < packetId := h.next packetId hcand
          have hnext : saturatingSucc packetId = packetId + 1 := by
            unfold saturatingSucc
            refine min_eq_left ?_
            have : i64Max + 1 ≤ u64Max := by decide
            omega
          simp only [if_true, min_eq_left hle, hnext]
          have hway : PublishState.onTheWay
              { s with pipe := s.pipe ++ [packetId], cand := some (some (packetId + 1)) } = s.onTheWay ++ [packetId] :=
            (List.append_assoc _ _ _).symm
          refine ⟨?_, ?_⟩
          · rw [hway]
            refine List.pairwise_append.mpr ⟨h.increasing, List.pairwise_singleton _ _, ?_⟩
            intro old hold new hnew
            rw [List.mem_singleton.mp hnew]
            exact hbelow old hold
          · intro next hnext old hold
            obtain rfl : packetId + 1 = next := Option.some.inj (Option.some.inj hnext)
            rw [hway] at hold
            rcases List.mem_append.mp hold with hold | hold
            · exact Nat.lt_succ_of_lt (hbelow old hold)
            · rw [List.mem_singleton.mp hold]
              exact Nat.lt_succ_self packetId

/-- **A careful step keeps the ids growing.** -/
theorem Growing.step {e : PublishEvent} (h : Growing s) (hcareful : Careful s e) (hstep : s.step e = some t) :
    Growing t := by
  cases e with
  | candStart =>
      simp only [PublishState.step, Option.ite_none_right_eq_some, Option.some.injEq] at hstep
      obtain ⟨-, rfl⟩ := hstep
      exact h.congr rfl fun _ hnone => absurd hnone (by simp)
  | candCrash =>
      simp only [PublishState.step, Option.ite_none_left_eq_some, Option.some.injEq] at hstep
      obtain ⟨-, rfl⟩ := hstep
      exact h.congr rfl fun _ hnone => absurd hnone (by simp)
  | publishdStart require =>
      simp only [PublishState.step, Option.ite_none_right_eq_some, Option.some.injEq] at hstep
      obtain ⟨-, rfl⟩ := hstep
      exact h.congr rfl fun _ hnext => hnext
  | publishdCrash =>
      simp only [PublishState.step, Option.ite_none_left_eq_some, Option.some.injEq] at hstep
      obtain ⟨-, rfl⟩ := hstep
      refine h.sublist ?_ rfl
      exact List.Sublist.append (List.Sublist.refl _) (List.nil_sublist _)
  | serverReply =>
      obtain rfl : _ = t := Option.some.inj hstep
      exact h.congr rfl fun _ hnext => hnext
  | hear serverPacketId =>
      simp only [PublishState.step, Option.ite_none_right_eq_some, Option.some.injEq] at hstep
      obtain ⟨-, rfl⟩ := hstep
      exact h.congr rfl fun _ hnext => hnext
  | writeSemaphore =>
      obtain ⟨packetId, -, rfl⟩ := Option.map_eq_some_iff.mp hstep
      exact h.congr rfl fun _ hnext => hnext
  | connect =>
      simp only [PublishState.step, Option.ite_none_right_eq_some, Option.some.injEq] at hstep
      obtain ⟨-, rfl⟩ := hstep
      exact h.congr rfl fun _ hnext => hnext
  | disconnect =>
      simp only [PublishState.step, Option.ite_none_right_eq_some, Option.some.injEq] at hstep
      obtain ⟨-, rfl⟩ := hstep
      exact h.congr rfl fun _ hnext => hnext
  | cycle sent =>
      simp only [PublishState.step, Option.ite_none_left_eq_some] at hstep
      obtain ⟨next, hcand, rfl⟩ := Option.map_eq_some_iff.mp hstep.2
      exact h.cycle hcand hcareful
  | read keep =>
      simp only [PublishState.step] at hstep
      split at hstep
      · rename_i packetId rest hrunning hpipe
        cases keep with
        | true =>
            obtain rfl : _ = t := Option.some.inj hstep
            refine h.congr ?_ fun _ hnext => hnext
            unfold PublishState.onTheWay
            rw [hpipe]
            exact List.append_assoc _ _ _
        | false =>
            obtain rfl : _ = t := Option.some.inj hstep
            refine h.sublist ?_ rfl
            unfold PublishState.onTheWay
            rw [hpipe]
            exact List.Sublist.append (List.Sublist.refl _) (List.sublist_cons_self _ _)
      · exact absurd hstep (by simp)
  | store packetId =>
      simp only [PublishState.step, Option.ite_none_right_eq_some, Option.some.injEq] at hstep
      obtain ⟨-, rfl⟩ := hstep
      exact h.congr rfl fun _ hnext => hnext

end Growing

/-- **Published packet ids never repeat.** In every run of careful steps from the boot of the car, the ids that
    `publishd` has forwarded grow. -/
theorem packet_ids_increase (es : List PublishEvent) (s : PublishState)
    (hrun : Steps PublishState.step Careful {} es s) : s.forwarded.Pairwise (· < ·) := by
  have hstart : Growing {} := ⟨List.Pairwise.nil, fun _ hnone => absurd hnone (by simp)⟩
  have hgrowing : Growing s := hrun.invariant (fun _ _ _ h hcareful hstep => h.step hcareful hstep) hstart
  exact hgrowing.increasing.sublist (List.sublist_append_left _ _)

/-! ## A restart of `cand` alone -/

/-- `publishd` asks for its id, `cand` starts, and two snapshots are forwarded and stored. -/
def firstLife : List PublishEvent :=
  [.publishdStart true, .serverReply, .hear 1, .writeSemaphore, .candStart, .cycle false, .connect, .cycle true,
    .cycle true, .read true, .read true, .store 2, .store 3]

/-- Both processes restart, and one more snapshot is forwarded. -/
def bothRestart : List PublishEvent :=
  [.candCrash, .publishdCrash, .publishdStart true, .serverReply, .hear 4, .writeSemaphore, .candStart, .cycle false,
    .connect, .cycle true, .read true]

/-- Only `cand` restarts, and one more snapshot is forwarded. -/
def candRestarts : List PublishEvent :=
  [.candCrash, .disconnect, .candStart, .cycle false, .connect, .cycle true, .read true]

instance (s : PublishState) : DecidablePred (Careful s)
  | .cycle sent => inferInstanceAs (Decidable
      ((s.cand = some none → ∀ seed ∈ s.startPacketId, ∀ packetId ∈ s.onTheWay, packetId < seed) ∧
        (sent = true → ∀ packetId ∈ s.cand.join, packetId ≤ i64Max)))
  | .candStart | .candCrash | .publishdStart _ | .publishdCrash | .serverReply | .hear _ | .writeSemaphore | .connect
  | .disconnect | .read _ | .store _ => .isTrue trivial

/-- The state after a first life, and a restart of both processes. -/
def afterBoth : PublishState :=
  { semaphore := some 5, cand := some (some 6), publishd := .running, link := .live, forwarded := [2, 3, 5],
    transit := [5], stored := [2, 3], replies := [1, 4] }

theorem packet_ids_increase_restarted :
    Steps PublishState.step Careful {} (firstLife ++ bothRestart) afterBoth ∧ afterBoth.forwarded.Pairwise (· < ·) := by
  have hrun : Steps PublishState.step Careful {} (firstLife ++ bothRestart) afterBoth :=
    steps_of_play (by decide)
  exact ⟨hrun, packet_ids_increase _ _ hrun⟩

/-- The new life of `cand` numbers from the old seed. -/
theorem not_ids_increase : ¬ ∀ (es : List PublishEvent) (s : PublishState),
    Steps PublishState.step always {} es s → s.forwarded.Pairwise (· < ·) := by
  intro hall
  have hrun : Steps PublishState.step always {} (firstLife ++ candRestarts)
      { semaphore := some 2, cand := some (some 3), publishd := .running, link := .live, forwarded := [2, 3, 2],
        transit := [2], stored := [2, 3], replies := [1] } :=
    steps_of_play (by decide)
  exact absurd (hall _ _ hrun) (by decide)

end Lhre.Bevo
