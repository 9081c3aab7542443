import Lhre.Bevo.Correctness.Scalars
import Lhre.CanSpec.Correctness.FrameLayout

/-!
# `Bevo.Correctness.Resolution` — which message a frame is read as

The validator keeps the ids of one bus apart. The gateway reads two buses into one map by id, and finds the frames of a
series by a search through it. So a frame is read as the message of its own bus only where no message of another bus
gets in between.

## Contents
- **The property.** `FramesResolved`; its condition is `Unambiguous`.
- **The map.** `Configured`, what the map holds of the messages.
- **Resolution.** `resolve_cases`, what a frame can be read as, and `resolve_isSome`.
- **Runs.** A message nobody listens to changes nothing.
- **`frames_resolved`.**
- **Two messages with one id.** `not_frames_resolved`.
-/

namespace Lhre.Bevo

open CanSpec Codegen

/-! ## The property -/

/-- The map of the gateway. -/
abbrev mapOf (packets : List PacketJson) : Dict ℕ PacketConfig := packetMap (packets.map PacketConfig.ofJson)

/-- An order in which the hash map can list its values. -/
def Listing (packets : List PacketJson) (order : List PacketConfig) : Prop := order.Perm ((mapOf packets).map Prod.snd)

/-- A message claims an id on a bus. -/
def Claims (m : CanMessage) (bus : String) (id : ℕ) : Prop := m.bus = bus ∧ id ∈ idRange m

/-- A frame is read as the message of its bus that claims its id, at its place in the series. If there is none, nothing
    changes. The order of the hash map does not matter. -/
structure FramesResolved (f32 : ℚ → ℚ) (spec : Spec) (packets : List PacketJson) : Prop where
  claimed : ∀ fm ∈ spec.messages, ∀ packet, packetJson spec fm.2 = some packet → ∀ bus id, Claims fm.2 bus id →
    ∀ order, Listing packets order → ∃ config,
      resolvePacketConfig (mapOf packets) order id = some (config, id - fm.2.canId) ∧
        config.bytes = (PacketConfig.ofJson packet).bytes
  unclaimed : ∀ bus ∈ spec.buses, ∀ id, (∀ fm ∈ spec.messages, ¬ Claims fm.2 bus.2.name id) →
    ∀ order, Listing packets order → ∀ data payload,
      canProcessing f32 (generateMapping packets) (mapOf packets) order data id payload = some data
  order : ∀ order order', Listing packets order → Listing packets order' → ∀ data id payload,
    canProcessing f32 (generateMapping packets) (mapOf packets) order data id payload =
      canProcessing f32 (generateMapping packets) (mapOf packets) order' data id payload

/-- The signals of a message in the decode table. -/
def layoutOf (spec : Spec) (m : CanMessage) : Option (List SignalConfig) :=
  (packetJson spec m).map fun packet => (PacketConfig.ofJson packet).bytes

/-- Messages that claim one id are listed alike; the message that is kept of those with one id is the longest series;
    and the ids of a message the gateway writes are claimed on every bus. -/
structure Unambiguous (spec : Spec) : Prop where
  shared : ∀ fm ∈ spec.messages, ∀ fm' ∈ spec.messages, ∀ id ∈ idRange fm.2, id ∈ idRange fm'.2 →
    fm.2.canId = fm'.2.canId ∧ layoutOf spec fm.2 = layoutOf spec fm'.2
  kept : ∀ fm ∈ spec.messages, ∀ m, ((sortedMessages spec).filter fun m => decide (m.canId = fm.2.canId)).getLast? = some m →
    effectiveQuantity fm.2 ≤ effectiveQuantity m
  heard : ∀ fm ∈ spec.messages, (∃ s ∈ fm.2.signal, ¬ Unheard spec.registries s) → ∀ bus ∈ spec.buses,
    ∀ id ∈ idRange fm.2, ∃ fm' ∈ spec.messages, Claims fm'.2 bus.2.name id

/-! ## The map -/

/-- What the map of the gateway is made from: a configuration for each message. -/
structure Configured (spec : Spec) (packets : List PacketJson) (config : CanMessage → PacketConfig) : Prop where
  table : packets.map PacketConfig.ofJson = (sortedMessages spec).map config
  packet : ∀ fm ∈ spec.messages, ∃ packet, packetJson spec fm.2 = some packet ∧ config fm.2 = PacketConfig.ofJson packet
  id : ∀ fm ∈ spec.messages, (config fm.2).packetId = fm.2.canId
  quantity : ∀ fm ∈ spec.messages, (config fm.2).quantity = effectiveQuantity fm.2

theorem exists_configured {spec : Spec} {packets : List PacketJson} (h : renderJson spec = some packets) :
    ∃ config, Configured spec packets config := by
  obtain ⟨types, render, htypes, rfl, hrender⟩ := renderJson_eq_some h
  refine ⟨fun m => PacketConfig.ofJson (render m), ?_, ?_, ?_, ?_⟩
  · rw [List.map_map]
    rfl
  · intro fm hfm
    refine ⟨render fm.2, ?_, rfl⟩
    unfold packetJson
    rw [htypes, Option.bind_some, hrender fm hfm]
  · intro fm hfm
    exact (renderMessage_eq_some (hrender fm hfm)).packetId
  · intro fm hfm
    exact (renderMessage_eq_some (hrender fm hfm)).quantity

section Configured

variable {spec : Spec} {packets : List PacketJson} {config : CanMessage → PacketConfig} {fm : String × CanMessage}
  {order : List PacketConfig} {id : ℕ}

theorem Configured.layout (h : Configured spec packets config) (hfm : fm ∈ spec.messages) :
    layoutOf spec fm.2 = some (config fm.2).bytes := by
  obtain ⟨packet, hpacket, hconfig⟩ := h.packet fm hfm
  unfold layoutOf
  rw [hpacket, hconfig]
  rfl

/-- The map keeps the last message of each id. -/
theorem Configured.get? (h : Configured spec packets config) (k : ℕ) :
    Dict.get? (mapOf packets) k =
      ((sortedMessages spec).filter fun m => decide (m.canId = k)).getLast?.map config := by
  show Dict.get? (Dict.index PacketConfig.packetId (packets.map PacketConfig.ofJson)) k = _
  rw [h.table, Dict.get?_index, List.filter_map, List.getLast?_map]
  congr 2
  refine List.filter_congr fun m hm => ?_
  obtain ⟨fm, hfm, rfl⟩ := mem_sortedMessages.mp hm
  show decide ((config fm.2).packetId = k) = _
  rw [h.id fm hfm]

theorem Configured.of_get? (h : Configured spec packets config) {c : PacketConfig}
    (hget : Dict.get? (mapOf packets) id = some c) : ∃ fm ∈ spec.messages, c = config fm.2 ∧ fm.2.canId = id := by
  rw [h.get?] at hget
  obtain ⟨m, hlast, rfl⟩ := Option.map_eq_some_iff.mp hget
  obtain ⟨hmem, hid⟩ := List.mem_filter.mp (List.mem_of_getLast? hlast)
  obtain ⟨fm, hfm, rfl⟩ := mem_sortedMessages.mp hmem
  exact ⟨fm, hfm, rfl, of_decide_eq_true hid⟩

/-- Every message has one of its id in the map, which is the last. -/
theorem Configured.kept (h : Configured spec packets config) (hfm : fm ∈ spec.messages) :
    ∃ fm' ∈ spec.messages, fm'.2.canId = fm.2.canId ∧
      ((sortedMessages spec).filter fun m => decide (m.canId = fm.2.canId)).getLast? = some fm'.2 ∧
      Dict.get? (mapOf packets) fm.2.canId = some (config fm'.2) := by
  have hin : fm.2 ∈ (sortedMessages spec).filter fun m => decide (m.canId = fm.2.canId) :=
    List.mem_filter.mpr ⟨mem_sortedMessages.mpr ⟨fm, hfm, rfl⟩, decide_eq_true rfl⟩
  obtain ⟨m, hlast⟩ := exists_getLast?_of_mem hin
  obtain ⟨hmem, hid⟩ := List.mem_filter.mp (List.mem_of_getLast? hlast)
  obtain ⟨fm', hfm', rfl⟩ := mem_sortedMessages.mp hmem
  refine ⟨fm', hfm', of_decide_eq_true hid, hlast, ?_⟩
  rw [h.get?, hlast]
  rfl

/-- A value of the map is found under its id. -/
theorem get?_of_listed (horder : Listing packets order) {c : PacketConfig} (hc : c ∈ order) :
    Dict.get? (mapOf packets) c.packetId = some c := by
  obtain ⟨⟨k, c⟩, hmem, rfl⟩ := List.mem_map.mp (horder.mem_iff.mp hc)
  have hget := (Dict.mem_iff_get? (Dict.nodup_keys_index (packets.map PacketConfig.ofJson))).mp hmem
  obtain ⟨-, rfl⟩ := Dict.of_get?_index hget
  exact hget

theorem listed_of_get? (horder : Listing packets order) {c : PacketConfig}
    (hget : Dict.get? (mapOf packets) id = some c) : c ∈ order := by
  have hmem := (Dict.mem_iff_get? (Dict.nodup_keys_index (packets.map PacketConfig.ofJson))).mpr hget
  exact horder.mem_iff.mpr (List.mem_map.mpr ⟨(id, c), hmem, rfl⟩)

/-! ## Resolution -/

theorem one_le_effectiveQuantity (m : CanMessage) : 1 ≤ effectiveQuantity m := by
  unfold effectiveQuantity
  split <;> omega

/-- A configuration claims the ids of its message; these are standard ids, so that no bound is cut. -/
theorem Configured.claimed (h : Configured spec packets config) (hv : spec.Valid) (hfm : fm ∈ spec.messages) (id : ℕ) :
    claimed id (config fm.2) = if id ∈ idRange fm.2 then some (config fm.2, id - fm.2.canId) else none := by
  have hids := (hv.message hfm).ids
  have hpos := one_le_effectiveQuantity fm.2
  have hrange : (fm.2.canId ≤ id ∧ id < min (fm.2.canId + max (effectiveQuantity fm.2) 1) (2 ^ 32 - 1)) ↔
      id ∈ idRange fm.2 := by
    rw [mem_idRange]
    omega
  unfold Bevo.claimed
  simp only [h.id fm hfm, h.quantity fm hfm]
  simp only [hrange]

/-- **What a frame can be read as**: a message that claims its id, and that the map has under its own id. -/
theorem Configured.resolve_cases (h : Configured spec packets config) (hv : spec.Valid)
    (horder : Listing packets order) {c : PacketConfig} {k : ℕ}
    (hres : resolvePacketConfig (mapOf packets) order id = some (c, k)) :
    ∃ fm ∈ spec.messages, c = config fm.2 ∧ id ∈ idRange fm.2 ∧ k = id - fm.2.canId ∧
      Dict.get? (mapOf packets) fm.2.canId = some c := by
  unfold resolvePacketConfig at hres
  split at hres
  · -- the exact match
    rename_i config' hget
    obtain ⟨rfl, rfl⟩ := Prod.mk.inj (Option.some.inj hres)
    obtain ⟨fm, hfm, rfl, rfl⟩ := h.of_get? hget
    refine ⟨fm, hfm, rfl, ?_, (Nat.sub_self _).symm, hget⟩
    have hpos := one_le_effectiveQuantity fm.2
    exact mem_idRange.mpr ⟨le_rfl, by omega⟩
  · obtain ⟨config', hmem, hclaimed⟩ := List.exists_of_findSome?_eq_some hres
    have hget := get?_of_listed horder hmem
    obtain ⟨fm, hfm, rfl, hid⟩ := h.of_get? hget
    rw [h.claimed hv hfm] at hclaimed
    split at hclaimed
    · rename_i hin
      obtain ⟨rfl, rfl⟩ := Prod.mk.inj (Option.some.inj hclaimed)
      exact ⟨fm, hfm, rfl, hin, rfl, hid ▸ hget⟩
    · cases hclaimed

/-- A frame that a message claims is read, if the message that is kept of those with its id is as long. -/
theorem Configured.resolve_isSome (h : Configured spec packets config) (hv : spec.Valid) (hu : Unambiguous spec)
    (horder : Listing packets order) (hfm : fm ∈ spec.messages) (hid : id ∈ idRange fm.2) :
    ∃ c k, resolvePacketConfig (mapOf packets) order id = some (c, k) := by
  unfold resolvePacketConfig
  cases hget : Dict.get? (mapOf packets) id with
  | some c => exact ⟨c, 0, rfl⟩
  | none =>
      obtain ⟨fm', hfm', hcan, hlast, hkept⟩ := h.kept hfm
      have hquantity := hu.kept fm hfm fm'.2 hlast
      have hin : id ∈ idRange fm'.2 := by
        rw [mem_idRange] at hid ⊢
        omega
      have hclaimed : Bevo.claimed id (config fm'.2) = some (config fm'.2, id - fm'.2.canId) := by
        rw [h.claimed hv hfm', if_pos hin]
      have hsome : (order.findSome? (Bevo.claimed id)).isSome :=
        List.findSome?_isSome_iff.mpr ⟨config fm'.2, listed_of_get? horder hkept, by rw [hclaimed]; rfl⟩
      obtain ⟨⟨c, k⟩, hres⟩ := Option.isSome_iff_exists.mp hsome
      exact ⟨c, k, hres⟩

/-- **A frame that a message claims** is read as one of its layout, at its place in the series. -/
theorem Configured.resolve_claimed (h : Configured spec packets config) (hv : spec.Valid) (hu : Unambiguous spec)
    (horder : Listing packets order) (hfm : fm ∈ spec.messages) (hid : id ∈ idRange fm.2) :
    ∃ c, resolvePacketConfig (mapOf packets) order id = some (c, id - fm.2.canId) ∧ c.bytes = (config fm.2).bytes := by
  obtain ⟨c, k, hres⟩ := h.resolve_isSome hv hu horder hfm hid
  obtain ⟨fm', hfm', rfl, hid', rfl, -⟩ := h.resolve_cases hv horder hres
  obtain ⟨hcan, hlayout⟩ := hu.shared fm hfm fm' hfm' id hid hid'
  rw [h.layout hfm, h.layout hfm', Option.some.injEq] at hlayout
  rw [hcan]
  exact ⟨config fm'.2, hres, hlayout.symm⟩

end Configured

/-! ## Runs -/

section Runs

variable {spec : Spec} {fm : String × CanMessage} {packets : List PacketJson} {packet : PacketJson}
  {types : Dict FieldKey FieldType} {f32 : ℚ → ℚ} {mp : Mapping} {payload : List U8}

/-- A run reads the signals of a configuration and nothing else of it. -/
theorem processRawData_congr {c c' : PacketConfig} (h : c.bytes = c'.bytes) (data : Snapshot) (k : ℕ) :
    processRawData f32 mp data payload c k = processRawData f32 mp data payload c' k := by
  unfold processRawData repeatedFieldSpan
  rw [h]

/-- The pass of a signal nobody listens to does nothing. -/
theorem unheard_pass {s : Signal} {j : SignalJson} (r : Rendered spec.registries types s j)
    (h : Unheard spec.registries s) (span k : ℕ) (data : Snapshot) :
    processSignal f32 mp payload span k data (SignalConfig.ofJson j) = some data := by
  rcases h with hnothing | ⟨hnumber, hwide⟩
  · unfold processSignal
    split
    · rfl
    · rename_i hlen
      cases hname : s.bitfieldType with
      | some name =>
          have hbits : telemetryBits spec.registries s = [] := by
            refine List.eq_nil_iff_forall_not_mem.mpr fun bit hbit => ?_
            have ht := (mem_boundTo_bitfield hname).mpr ⟨bit.2, hbit⟩
            rw [hnothing] at ht
            exact absurd ht List.not_mem_nil
          rw [if_pos (bitfield_conv r hname)]
          unfold processBits
          rw [entry_bits r hname, hbits]
          rfl
      | none =>
          have htele : s.telemetry = none := by
            cases ht : s.telemetry with
            | none => rfl
            | some t =>
                have hmem : t ∈ boundTo spec.registries s := (mem_boundTo_number hname).mpr ht
                rw [hnothing] at hmem
                exact absurd hmem List.not_mem_nil
          rw [if_neg (number_conv r hname)]
          obtain ⟨raw, hraw, -⟩ := exists_rawValue r hname (not_lt.mp hlen)
          rw [hraw]
          cases raw with
          | none => rfl
          | some raw =>
              show some (writeValue mp span k (SignalConfig.ofJson j) _ data) = some data
              unfold writeValue
              rw [config_protobuf_none r htele]
  · exact wide_pass r hnumber hwide f32 mp payload span k data

/-- **A message nobody listens to** changes nothing. -/
theorem Listed.unheard_run (h : Listed spec fm packets packet) (hunheard : ∀ s ∈ fm.2.signal, Unheard spec.registries s)
    (data : Snapshot) (k : ℕ) :
    processRawData f32 mp data payload (PacketConfig.ofJson packet) k = some data := by
  obtain ⟨types, entry, l⟩ := h.loading
  rw [l.run_eq]
  have hpass : ∀ sp ∈ places fm.2, processSignal f32 mp payload (repeatedFieldSpan (PacketConfig.ofJson packet)) k data
      (configOf entry sp) = some data :=
    fun sp hsp => unheard_pass (l.rendered sp hsp) (hunheard sp.1 (mem_places hsp)) _ k data
  generalize places fm.2 = sps at hpass
  induction sps with
  | nil => rfl
  | cons sp sps ih =>
      obtain ⟨hfirst, hrest⟩ := List.forall_mem_cons.mp hpass
      rw [List.foldlM_cons, hfirst]
      exact ih hrest

end Runs

/-! ## The claim -/

section Claim

variable {spec : Spec} {packets : List PacketJson} {f32 : ℚ → ℚ}

theorem frames_resolved_of_unambiguous (hv : spec.Valid) (ht : renderJson spec = some packets) (hu : Unambiguous spec) :
    FramesResolved f32 spec packets := by
  obtain ⟨config, h⟩ := exists_configured ht
  have hclaimed {fm : String × CanMessage} {order : List PacketConfig} {id : ℕ} (horder : Listing packets order)
      (hfm : fm ∈ spec.messages) (hid : id ∈ idRange fm.2) := h.resolve_claimed hv hu horder hfm hid
  have hnone {order : List PacketConfig} {id : ℕ} (horder : Listing packets order)
      (hno : ∀ fm ∈ spec.messages, id ∉ idRange fm.2) : resolvePacketConfig (mapOf packets) order id = none := by
    cases hres : resolvePacketConfig (mapOf packets) order id with
    | none => rfl
    | some found =>
        obtain ⟨fm, hfm, -, hid, -⟩ := h.resolve_cases hv horder (k := found.2) (c := found.1) hres
        exact absurd hid (hno fm hfm)
  refine ⟨?_, ?_, ?_⟩
  · intro fm hfm packet hpacket bus id hclaims order horder
    obtain ⟨c, hres, hbytes⟩ := hclaimed horder hfm hclaims.2
    obtain ⟨packet', hpacket', hconfig⟩ := h.packet fm hfm
    obtain rfl := Option.some.inj (hpacket.symm.trans hpacket')
    exact ⟨c, hres, hbytes.trans (congrArg PacketConfig.bytes hconfig)⟩
  · intro bus hbus id hno order horder data payload
    unfold canProcessing
    cases hres : resolvePacketConfig (mapOf packets) order id with
    | none => rfl
    | some found =>
        obtain ⟨fm, hfm, hconfig, hid, -⟩ := h.resolve_cases hv horder (k := found.2) (c := found.1) hres
        obtain ⟨packet, hpacket, hofJson⟩ := h.packet fm hfm
        have hmute : ∀ s ∈ fm.2.signal, Unheard spec.registries s := by
          intro s hs
          by_contra hheard
          obtain ⟨fm', hfm', hclaims⟩ := hu.heard fm hfm ⟨s, hs, hheard⟩ bus hbus id hid
          exact hno fm' hfm' hclaims
        have hlisted : Listed spec fm packets packet := ⟨hv, hfm, ht, hpacket⟩
        show processRawData f32 _ data payload found.1 found.2 = some data
        rw [hconfig, hofJson]
        exact hlisted.unheard_run hmute data found.2
  · intro order order' horder horder' data id payload
    unfold canProcessing
    by_cases hsome : ∃ fm ∈ spec.messages, id ∈ idRange fm.2
    · obtain ⟨fm, hfm, hid⟩ := hsome
      obtain ⟨c, hres, hbytes⟩ := hclaimed horder hfm hid
      obtain ⟨c', hres', hbytes'⟩ := hclaimed horder' hfm hid
      rw [hres, hres']
      exact processRawData_congr (hbytes.trans hbytes'.symm) data _
    · have hno : ∀ fm ∈ spec.messages, id ∉ idRange fm.2 := fun fm hfm hid => hsome ⟨fm, hfm, hid⟩
      rw [hnone horder hno, hnone horder' hno]

theorem FramesResolved.unambiguous (h : FramesResolved f32 spec packets) (hv : spec.Valid)
    (ht : renderJson spec = some packets) : Unambiguous spec := by
  obtain ⟨config, hc⟩ := exists_configured ht
  have hlisting : Listing packets ((mapOf packets).map Prod.snd) := List.Perm.refl _
  have hclaimed : ∀ fm ∈ spec.messages, ∀ id ∈ idRange fm.2, ∃ c,
      resolvePacketConfig (mapOf packets) ((mapOf packets).map Prod.snd) id = some (c, id - fm.2.canId) ∧
        c.bytes = (config fm.2).bytes := by
    intro fm hfm id hid
    obtain ⟨packet, hpacket, hofJson⟩ := hc.packet fm hfm
    obtain ⟨c, hres, hbytes⟩ := h.claimed fm hfm packet hpacket fm.2.bus id ⟨rfl, hid⟩ _ hlisting
    exact ⟨c, hres, by rw [hbytes, hofJson]⟩
  refine ⟨?_, ?_, ?_⟩
  · intro fm hfm fm' hfm' id hid hid'
    obtain ⟨c, hres, hbytes⟩ := hclaimed fm hfm id hid
    obtain ⟨c', hres', hbytes'⟩ := hclaimed fm' hfm' id hid'
    obtain ⟨rfl, hplace⟩ := Prod.mk.inj (Option.some.inj (hres.symm.trans hres'))
    rw [mem_idRange] at hid hid'
    refine ⟨by omega, ?_⟩
    rw [hc.layout hfm, hc.layout hfm', ← hbytes, ← hbytes']
  · intro fm hfm m hlast
    by_contra hlong
    obtain ⟨fm', hfm', hcan, hlast', hkept⟩ := hc.kept hfm
    obtain rfl : m = fm'.2 := Option.some.inj (hlast.symm.trans hlast')
    -- the first id past the series that is kept
    have hpos := one_le_effectiveQuantity fm'.2
    have hid : fm.2.canId + effectiveQuantity fm'.2 ∈ idRange fm.2 := mem_idRange.mpr ⟨by omega, by omega⟩
    obtain ⟨c, hres, -⟩ := hclaimed fm hfm _ hid
    obtain ⟨fm'', hfm'', rfl, hid'', hplace, hget⟩ := hc.resolve_cases hv hlisting hres
    rw [mem_idRange] at hid''
    have hcan'' : fm''.2.canId = fm.2.canId := by omega
    rw [hcan'', hkept, Option.some.injEq] at hget
    have hquantity := congrArg PacketConfig.quantity hget
    rw [hc.quantity fm' hfm', hc.quantity fm'' hfm''] at hquantity
    omega
  · rintro fm hfm ⟨s, hs, hheard⟩ bus hbus id hid
    by_contra hno
    push Not at hno
    obtain ⟨packet, hpacket, hofJson⟩ := hc.packet fm hfm
    have hlisted : Listed spec fm packets packet := ⟨hv, hfm, ht, hpacket⟩
    obtain ⟨i, hi⟩ := exists_place hs
    have hlen : fm.2.dlc ≤ (List.replicate fm.2.dlc (0 : U8)).length := by rw [List.length_replicate]
    obtain ⟨data, hdata⟩ := hlisted.written hi hheard hlen f32 (id - fm.2.canId)
    have hkept := h.unclaimed bus hbus id hno _ hlisting data (List.replicate fm.2.dlc 0)
    obtain ⟨c, hres, hbytes⟩ := hclaimed fm hfm id hid
    unfold canProcessing at hkept
    rw [hres] at hkept
    have hrun := (processRawData_congr (hbytes.trans (congrArg PacketConfig.bytes hofJson)) data _).symm.trans hkept
    exact hdata data hrun ⟨fun _ _ => rfl, fun _ _ => rfl⟩

/-- **Every frame is read as the message of its bus** exactly where no message of another bus is in the way. -/
theorem frames_resolved (hv : spec.Valid) (ht : renderJson spec = some packets) :
    FramesResolved f32 spec packets ↔ Unambiguous spec :=
  ⟨fun h => h.unambiguous hv ht, frames_resolved_of_unambiguous hv ht⟩

end Claim

/-- On the messages of one bus. -/
theorem frames_resolved_drive :
    FramesResolved (fun x => x) driveSpec (tableOf driveSpec) ↔ Unambiguous driveSpec :=
  frames_resolved drive_deployed.valid drive_deployed.table

/-! ## Two messages with one id -/

/-- A byte of an echo. -/
def echoMessage (name bus field : String) (id : ℕ) : CanMessage where
  name := name
  canId := 474
  fromBoard := "VCU"
  bus := bus
  dlc := 8
  signal := [numberSignal 0 8 .unsigned 1 (floatField field id)]

/-- Two buses, each with an echo under the same id. -/
def echoSpec : Spec where
  files :=
    [("lib/spec/buses.textproto",
        { bus := [{ name := "Critical", bitrateBps := 1000000 }, { name := "Data Acq", bitrateBps := 1000000 }] }),
      ("lib/spec/groups.textproto", { group := [{ name := "Dynamics", nextFreeId := 3, snapshotId := 3 }] }),
      ("lib/spec/messages/vcu.textproto",
        { message :=
            [echoMessage "VCU_ECHO_REPLY_CRITICAL" "Critical" "critical_echo" 1,
              echoMessage "VCU_ECHO_REPLY_DATA" "Data Acq" "data_echo" 2] })]
  nodup := by simp

/-- **A frame of one bus is read as the message of the other.** -/
theorem not_frames_resolved : ¬ ∃ f32, ∀ spec packets, spec.Valid → renderJson spec = some packets →
    FramesResolved f32 spec packets := by
  rintro ⟨f32, hall⟩
  have hv : echoSpec.Valid := by decide
  have htable : (renderJson echoSpec).isSome := by decide
  obtain ⟨packets, ht⟩ := Option.isSome_iff_exists.mp htable
  have hu := (hall echoSpec packets hv ht).unambiguous hv ht
  have hshared := hu.shared
    ("lib/spec/messages/vcu.textproto", echoMessage "VCU_ECHO_REPLY_CRITICAL" "Critical" "critical_echo" 1)
    List.mem_cons_self
    ("lib/spec/messages/vcu.textproto", echoMessage "VCU_ECHO_REPLY_DATA" "Data Acq" "data_echo" 2)
    (List.mem_cons_of_mem _ List.mem_cons_self) 474 (by decide) (by decide)
  have hdiffer : layoutOf echoSpec (echoMessage "VCU_ECHO_REPLY_CRITICAL" "Critical" "critical_echo" 1) ≠
      layoutOf echoSpec (echoMessage "VCU_ECHO_REPLY_DATA" "Data Acq" "data_echo" 2) := by decide
  exact hdiffer hshared.2

end Lhre.Bevo
