import Lhre.Drivers.Shell
import Lhre.Theory.TokenMatch

/-!
# `Drivers.Correctness.LineEditor` — what the shell makes of a stream of bytes

A reference editor works on a line as a list: it has no buffer, no length and no zero at the end. The shell relates to it
by `Shell.Holds`, every byte keeps the relation, and the lines the two end are the same. Reading a line back out of the
buffer (`dispatchLine_eq`) rests on the zero that `DispatchLine` writes: no byte of a line is 0, so the pointers stop
inside the buffer and a name compares equal only as a whole.

## Contents
- **The reference.** `edit`, `editAll`, `lineDispatch`, `hooked`.
- **A line.** `findCommand_eq`, `dispatchCommand_eq`, `dispatchLine_eq`.
- **A byte.** `Shell.Holds`, `Shell.Follows`, `handleByte_follows`, `receive_follows`.
- **A stream.** `poll_follows`, `polls_eq_poll`, `hooked_onByte`, `shell_edits_lines`.
-/

namespace Lhre.Longhorn

open Lhal

variable {H σ : Type}

/-! ## The reference -/

/-- A byte at the reference editor: the line after it and the line that it ends, if it does. -/
def edit (line : List U8) (byte : U8) (consumed : Bool) : List U8 × Option (List U8) :=
  if consumed then ([], none)
  else if byte = byteOf '\r' ∨ byte = byteOf '\n' then ([], if line = [] then none else some line)
  else if byte = 0x08 ∨ byte = 0x7F then (line.dropLast, none)
  else if 0x20 ≤ byte ∧ byte ≤ 0x7E ∧ line.length < kMaxLineLength - 1 then (line ++ [byte], none)
  else (line, none)

/-- The reference editor on bytes of which a hook has taken some: the last line and those that ended. -/
def editAll : List U8 → List (U8 × Bool) → List U8 × List (List U8)
  | line, [] => (line, [])
  | line, (byte, consumed) :: rest =>
      let (next, ended) := edit line byte consumed
      let (last, later) := editAll next rest
      (last, ended.toList ++ later)

/-- The word after the slash. -/
def commandWord (line : List U8) : List U8 := line.tail.takeWhile fun c => decide (c ≠ byteOf ' ')

/-- The text after the spaces that separate it from the word. -/
def commandArgs (line : List U8) : List U8 :=
  (line.tail.dropWhile fun c => decide (c ≠ byteOf ' ')).dropWhile fun c => decide (c = byteOf ' ')

/-- What a line comes to. -/
def lineDispatch (commands : List (ShellCommand H)) (plainHandler : Option H) (line : List U8) : Dispatch H :=
  if line.head? = some (byteOf '/') then
    match commands.find? fun cmd => decide (cmd.name.bytes = commandWord line) with
    | some cmd => .run cmd.handler (commandArgs line)
    | none => .unknown (commandWord line)
  else
    match plainHandler with
    | some handler => .plain handler line
    | none => .hint

/-- What the hook makes of a byte. -/
def hookStep (hook : Option (σ → U8 → σ × Bool)) (context : σ) (byte : U8) : σ × Bool :=
  match hook with
  | some hook => hook context byte
  | none => (context, false)

/-- The bytes of a stream, each with whether the hook takes it. -/
def hooked (hook : Option (σ → U8 → σ × Bool)) : σ → List U8 → List (U8 × Bool)
  | _, [] => []
  | context, byte :: rest =>
      (byte, (hookStep hook context byte).2) :: hooked hook (hookStep hook context byte).1 rest

/-! ## A line -/

/-- **A command is found by its whole name**, and the first of that name. -/
theorem findCommand_eq {word rest : List U8} (hword : 0 ∉ word) (commands : List (ShellCommand H)) :
    findCommand (word ++ rest) word.length commands =
      some (commands.find? fun cmd => decide (cmd.name.bytes = word)) := by
  induction commands with
  | nil => rfl
  | cons cmd commands ih =>
      have hnamed : cmd.isNamed (word ++ rest) word.length = some (decide (cmd.name.bytes = word)) := by
        unfold ShellCommand.isNamed CStr.ptr
        rw [CString.strncmp_append cmd.name.nonzero hword, Option.bind_some]
        -- a name that goes on after the word fails at the byte past it, a shorter one within the word
        by_cases hprefix : word <+: cmd.name.bytes
        · obtain ⟨c, hc, hzero⟩ := CString.load_at_end cmd.name.nonzero hprefix
          rw [if_pos (decide_eq_true hprefix), hc, Option.map_some, decide_eq_decide.mpr hzero]
        · have hne : cmd.name.bytes ≠ word := by
            rintro rfl
            exact hprefix (List.prefix_refl _)
          rw [if_neg (by simpa using hprefix), decide_eq_false hne]
      rw [findCommand, hnamed, Option.bind_some, List.find?_cons]
      by_cases h : cmd.name.bytes = word
      · rw [if_pos (decide_eq_true h), decide_eq_true h]
      · rw [if_neg (by simpa using h), decide_eq_false h]
        exact ih

/-- Without a zero in it, a text is skipped up to the first space. -/
theorem skipWord_eq {l : List U8} (h : 0 ∉ l) :
    (l.dropWhile fun c => decide (c ≠ 0) && decide (c ≠ byteOf ' ')) = l.dropWhile fun c => decide (c ≠ byteOf ' ') := by
  induction l with
  | nil => rfl
  | cons c l ih =>
      obtain ⟨hc, hl⟩ := List.ne_and_not_mem_of_not_mem_cons h
      rw [List.dropWhile_cons, List.dropWhile_cons, ih hl, decide_eq_true (Ne.symm hc), Bool.true_and]

/-- After a slash: the command of the word, with the rest as its arguments. -/
theorem dispatchCommand_eq (commands : List (ShellCommand H)) {body rest : List U8} (h : 0 ∉ body) :
    dispatchCommand commands (body ++ 0 :: rest) =
      some (lineDispatch commands none (byteOf '/' :: body)) := by
  have hword : 0 ∉ body.takeWhile fun c => decide (c ≠ byteOf ' ') := fun hmem => h (List.takeWhile_subset _ hmem)
  have hargs : 0 ∉ (body.dropWhile fun c => decide (c ≠ byteOf ' ')).dropWhile fun c => decide (c = byteOf ' ') :=
    fun hmem => h ((List.dropWhile_suffix _).subset ((List.dropWhile_suffix _).subset hmem))
  have hsplit : body ++ 0 :: rest = (body.takeWhile fun c => decide (c ≠ byteOf ' ')) ++
      ((body.dropWhile fun c => decide (c ≠ byteOf ' ')) ++ 0 :: rest) := by
    rw [← List.append_assoc, List.takeWhile_append_dropWhile]
  unfold dispatchCommand
  rw [CString.skip_append (by decide), Option.bind_some, skipWord_eq h]
  dsimp only
  rw [CString.skip_append (by decide), Option.bind_some]
  -- the length of the name is the distance between two pointers into the same buffer
  have hlength : (body ++ 0 :: rest).length - ((body.dropWhile fun c => decide (c ≠ byteOf ' ')) ++ 0 :: rest).length =
      (body.takeWhile fun c => decide (c ≠ byteOf ' ')).length := by
    rw [hsplit, List.length_append]
    omega
  rw [hlength, hsplit, findCommand_eq hword, Option.bind_some]
  unfold lineDispatch
  rw [if_pos (show (byteOf '/' :: body).head? = some (byteOf '/') from rfl)]
  show _ = some (match commands.find? fun cmd => decide (cmd.name.bytes = body.takeWhile _) with
    | some cmd => Dispatch.run cmd.handler (commandArgs (byteOf '/' :: body))
    | none => Dispatch.unknown (commandWord (byteOf '/' :: body)))
  cases commands.find? fun cmd => decide (cmd.name.bytes = body.takeWhile fun c => decide (c ≠ byteOf ' ')) with
  | some cmd =>
      dsimp only
      rw [CString.text_append hargs]
      rfl
  | none =>
      dsimp only
      rw [List.take_left]
      rfl

/-! ## A byte -/

/-- The buffer holds a line. -/
structure Shell.Holds (shell : Shell H σ) (line : List U8) : Prop where
  length : shell.lineLen = line.length
  bytes : shell.line.bytes.take line.length = line
  short : line.length ≤ kMaxLineLength - 1
  printable : ∀ c ∈ line, 0x20 ≤ c ∧ c ≤ 0x7E

theorem Shell.Holds.nonzero {shell : Shell H σ} {line : List U8} (h : shell.Holds line) : 0 ∉ line := by
  intro hmem
  exact absurd (h.printable 0 hmem).1 (by decide)

theorem Shell.Holds.empty {shell : Shell H σ} (h : shell.lineLen = 0) : shell.Holds [] where
  length := h
  bytes := rfl
  short := Nat.zero_le _
  printable := fun _ hc => absurd hc List.not_mem_nil

theorem Shell.Holds.erase {shell : Shell H σ} {line : List U8} (h : shell.Holds line) :
    Shell.Holds { shell with lineLen := shell.lineLen - 1 } line.dropLast := by
  have hdrop : line.dropLast.length = line.length - 1 := List.length_dropLast
  refine ⟨?_, ?_, ?_, ?_⟩
  · rw [hdrop, ← h.length]
  · have hbytes := congrArg (List.take (line.length - 1)) h.bytes
    rw [List.take_take, Nat.min_eq_left (Nat.sub_le _ _)] at hbytes
    rw [hdrop, List.dropLast_eq_take]
    exact hbytes
  · rw [hdrop]
    exact (Nat.sub_le _ _).trans h.short
  · intro c hc
    exact h.printable c (List.dropLast_subset line hc)

/-- The byte after the line can be written, and the line stays. -/
theorem Shell.Holds.store {shell : Shell H σ} {line : List U8} (h : shell.Holds line) (c : U8) :
    ∃ buffer rest, shell.line.store shell.lineLen c = some buffer ∧ buffer.bytes = line ++ c :: rest := by
  have hshort := h.short
  have hsize := shell.line.size
  have hin : line.length < kMaxLineLength := by
    unfold kMaxLineLength at hshort ⊢
    omega
  have hbytes : shell.line.bytes.set line.length c = line ++ c :: shell.line.bytes.drop (line.length + 1) := by
    rw [List.set_eq_take_append_cons_drop, if_pos (by omega), h.bytes]
  unfold LineBuffer.store
  rw [h.length]
  simp only [if_pos hin, Option.some.injEq, exists_and_left, exists_eq_left']
  exact ⟨_, hbytes⟩

theorem Shell.Holds.append {shell : Shell H σ} {line : List U8} (h : shell.Holds line) {c : U8}
    (hprintable : 0x20 ≤ c ∧ c ≤ 0x7E) (hroom : line.length < kMaxLineLength - 1) :
    ∃ buffer, shell.line.store shell.lineLen c = some buffer ∧
      Shell.Holds { shell with line := buffer, lineLen := shell.lineLen + 1 } (line ++ [c]) := by
  obtain ⟨buffer, rest, hstore, hbytes⟩ := h.store c
  have hgrow : (line ++ [c]).length = line.length + 1 := List.length_append
  refine ⟨buffer, hstore, ?_, ?_, ?_, ?_⟩
  · rw [hgrow, ← h.length]
  · have hbuffer : buffer.bytes = line ++ [c] ++ rest := by
      rw [hbytes, List.append_assoc]
      rfl
    show buffer.bytes.take (line ++ [c]).length = line ++ [c]
    rw [hbuffer, List.take_left]
  · rw [hgrow]
    exact hroom
  · intro c' hc'
    rcases List.mem_append.mp hc' with hc' | hc'
    · exact h.printable c' hc'
    · rw [List.mem_singleton.mp hc']
      exact hprintable

/-- **The line that is dispatched** is the one the buffer holds. -/
theorem dispatchLine_eq {shell : Shell H σ} {line : List U8} (h : shell.Holds line) (hne : line ≠ []) :
    ∃ buffer, shell.dispatchLine = some ({ shell with line := buffer, lineLen := 0 },
      lineDispatch shell.table.commands shell.plainHandler line) := by
  obtain ⟨buffer, rest, hstore, hbytes⟩ := h.store 0
  refine ⟨buffer, ?_⟩
  unfold Shell.dispatchLine
  rw [hstore, Option.bind_some]
  dsimp only
  -- the zero is written where the line ends, so the text of the buffer is the line
  rw [hbytes, CString.text_append h.nonzero]
  cases line with
  | nil => exact absurd rfl hne
  | cons c body =>
      have hbody : 0 ∉ body := (List.ne_and_not_mem_of_not_mem_cons h.nonzero).2
      show (if c ≠ byteOf '/' then _ else _) = _
      unfold lineDispatch
      by_cases hslash : c = byteOf '/'
      · subst hslash
        rw [if_neg (not_not.mpr rfl)]
        show (dispatchCommand shell.table.commands (body ++ 0 :: rest)).map _ = _
        rw [dispatchCommand_eq _ hbody]
        rfl
      · rw [if_pos hslash, if_neg (show ¬ (c :: body).head? = some (byteOf '/') from fun heq =>
          hslash (Option.some.inj heq))]
        cases shell.plainHandler with
        | some handler => rfl
        | none => rfl

/-- A word of which a name is only the beginning is not that command. -/
example : lineDispatch (builtIns 0 1 2).commands none ("/version  all".toList.map byteOf) =
    .run 1 ("all".toList.map byteOf) ∧
    lineDispatch (builtIns 0 1 2).commands none ("/versions".toList.map byteOf) = .unknown ("versions".toList.map byteOf) :=
  ⟨rfl, rfl⟩

/-- What a shell has done and come to, for a reference editor that has ended some lines and is at another. -/
structure Shell.Follows (shell shell' : Shell H σ) (events : List (Event H)) (context : σ) (line : List U8)
    (ended : List (List U8)) : Prop where
  table : shell'.table = shell.table
  plainHandler : shell'.plainHandler = shell.plainHandler
  byteHandler : shell'.byteHandler = shell.byteHandler
  byteContext : shell'.byteContext = context
  holds : shell'.Holds line
  dispatched : events.filterMap Event.dispatched = ended.map (lineDispatch shell.table.commands shell.plainHandler)

theorem Shell.Follows.trans {first second third : Shell H σ} {events events' : List (Event H)} {context context' : σ}
    {line line' : List U8} {ended ended' : List (List U8)} (h : first.Follows second events context line ended)
    (h' : second.Follows third events' context' line' ended') :
    first.Follows third (events ++ events') context' line' (ended ++ ended') where
  table := h'.table.trans h.table
  plainHandler := h'.plainHandler.trans h.plainHandler
  byteHandler := h'.byteHandler.trans h.byteHandler
  byteContext := h'.byteContext
  holds := h'.holds
  dispatched := by
    rw [List.filterMap_append, List.map_append, h.dispatched, h'.dispatched, h.table, h.plainHandler]

/-- **A byte edits the line** as the reference editor does. -/
theorem handleByte_follows {shell : Shell H σ} {line : List U8} (h : shell.Holds line) (c : U8) :
    ∃ shell' events, shell.handleByte c = some (shell', events) ∧
      shell.Follows shell' events shell.byteContext (edit line c false).1 (edit line c false).2.toList := by
  have hlength := h.length
  have hkeep : shell.Follows shell [] shell.byteContext line [] := ⟨rfl, rfl, rfl, rfl, h, rfl⟩
  unfold Shell.handleByte edit
  rw [if_neg Bool.false_ne_true]
  -- the branches of `HandleByte`, in its order
  by_cases hend : c = byteOf '\r' ∨ c = byteOf '\n'
  · rw [if_pos hend, if_pos hend]
    by_cases hempty : line = []
    · subst hempty
      rw [if_neg (by rw [hlength]; exact Nat.lt_irrefl 0), if_pos rfl]
      exact ⟨shell, [], rfl, hkeep⟩
    · obtain ⟨buffer, hdispatch⟩ := dispatchLine_eq h hempty
      have hpos : 0 < shell.lineLen := by
        rw [hlength]
        exact List.length_pos_of_ne_nil hempty
      rw [if_pos hpos, if_neg hempty, hdispatch]
      exact ⟨_, _, rfl, rfl, rfl, rfl, rfl, .empty rfl, rfl⟩
  rw [if_neg hend, if_neg hend]
  by_cases hback : c = 0x08 ∨ c = 0x7F
  · rw [if_pos hback, if_pos hback]
    by_cases hpos : 0 < shell.lineLen
    · rw [if_pos hpos]
      exact ⟨_, _, rfl, rfl, rfl, rfl, rfl, h.erase, rfl⟩
    -- an erase at the start of a line does nothing, in both
    · obtain rfl : line = [] := List.length_eq_zero_iff.mp (by omega)
      rw [if_neg hpos]
      exact ⟨shell, [], rfl, hkeep⟩
  rw [if_neg hback, if_neg hback]
  by_cases hcontrol : c < 0x20 ∨ 0x7E < c
  · rw [if_pos hcontrol, if_neg (by rintro ⟨hlow, hhigh, -⟩; bv_omega)]
    exact ⟨shell, [], rfl, hkeep⟩
  have hprintable : 0x20 ≤ c ∧ c ≤ 0x7E := by bv_omega
  rw [if_neg hcontrol]
  by_cases hroom : line.length < kMaxLineLength - 1
  · obtain ⟨buffer, hstore, hholds⟩ := h.append hprintable hroom
    rw [if_pos (by rw [hlength]; exact hroom), if_pos ⟨hprintable.1, hprintable.2, hroom⟩, hstore]
    exact ⟨_, _, rfl, rfl, rfl, rfl, rfl, hholds, rfl⟩
  · rw [if_neg (by rw [hlength]; exact hroom), if_neg (fun hall => hroom hall.2.2)]
    exact ⟨shell, [], rfl, hkeep⟩

/-- A byte that the hook takes empties the line; any other is edited in. -/
theorem receive_follows {shell : Shell H σ} {line : List U8} (h : shell.Holds line) (byte : U8) :
    ∃ shell' events, shell.receive byte = some (shell', events) ∧
      shell.Follows shell' events (hookStep shell.byteHandler shell.byteContext byte).1
        (edit line byte (hookStep shell.byteHandler shell.byteContext byte).2).1
        (edit line byte (hookStep shell.byteHandler shell.byteContext byte).2).2.toList := by
  obtain ⟨table, plainHandler, byteHandler, byteContext, buffer, lineLen⟩ := shell
  cases byteHandler with
  | none => exact handleByte_follows h byte
  | some hook =>
      unfold Shell.receive hookStep
      dsimp only
      cases hook byteContext byte with
      | mk context consumed =>
          cases consumed with
          -- a byte that the hook takes is not echoed and ends no line
          | true => exact ⟨_, _, rfl, rfl, rfl, rfl, rfl, .empty rfl, rfl⟩
          | false =>
              have hholds : Shell.Holds ⟨table, plainHandler, some hook, context, buffer, lineLen⟩ line :=
                ⟨h.length, h.bytes, h.short, h.printable⟩
              obtain ⟨shell', events, hstep, hfollows⟩ := handleByte_follows hholds byte
              exact ⟨shell', events, hstep, hfollows.table, hfollows.plainHandler, hfollows.byteHandler,
                hfollows.byteContext, hfollows.holds, hfollows.dispatched⟩

/-! ## A stream -/

/-- **A stream edits the line** as the reference editor does. -/
theorem poll_follows {shell : Shell H σ} {line : List U8} (h : shell.Holds line) (bytes : List U8) :
    ∃ shell' events context, shell.poll bytes = some (shell', events) ∧
      shell.Follows shell' events context (editAll line (hooked shell.byteHandler shell.byteContext bytes)).1
        (editAll line (hooked shell.byteHandler shell.byteContext bytes)).2 := by
  induction bytes generalizing shell line with
  | nil => exact ⟨shell, [], shell.byteContext, rfl, rfl, rfl, rfl, rfl, h, rfl⟩
  | cons byte bytes ih =>
      obtain ⟨next, events, hstep, hfollows⟩ := receive_follows h byte
      obtain ⟨shell', later, context, hrest, hlater⟩ := ih hfollows.holds
      refine ⟨shell', events ++ later, context, ?_, ?_⟩
      · rw [Shell.poll, hstep, Option.bind_some, hrest]
        rfl
      · rw [hfollows.byteHandler, hfollows.byteContext] at hlater
        exact hfollows.trans hlater

theorem poll_append (shell : Shell H σ) (bytes bytes' : List U8) :
    shell.poll (bytes ++ bytes') = (shell.poll bytes).bind fun first =>
      (first.1.poll bytes').map fun rest => (rest.1, first.2 ++ rest.2) := by
  induction bytes generalizing shell with
  | nil =>
      rw [List.nil_append, Shell.poll, Option.bind_some]
      cases shell.poll bytes' <;> rfl
  | cons byte bytes ih =>
      rw [List.cons_append, Shell.poll, Shell.poll]
      cases shell.receive byte with
      | none => rfl
      | some first =>
          rw [Option.bind_some, Option.bind_some, ih]
          cases first.1.poll bytes with
          | none => rfl
          | some second =>
              rw [Option.bind_some, Option.map_some, Option.bind_some]
              cases second.1.poll bytes' with
              | none => rfl
              | some third => simp [List.append_assoc]

/-- **How a stream is split into polls makes no difference.** -/
theorem polls_eq_poll (shell : Shell H σ) (chunks : List (List U8)) : shell.polls chunks = shell.poll chunks.flatten := by
  induction chunks generalizing shell with
  | nil => rfl
  | cons pending later ih =>
      rw [List.flatten_cons, poll_append, Shell.polls]
      congr 1
      funext first
      rw [ih]

/-- The matcher of the bootloader request is that of its token. -/
theorem feed_eq (command : DfuCommand) (byte : U8) :
    ((command.feed byte).1.matched, (command.feed byte).2) = TokenMatch.advance kToken command.matched byte := by
  obtain ⟨matched, hshort⟩ := command
  have hnext : kToken[matched]? = some byte ↔ byte = kToken.get ⟨matched, hshort⟩ := by
    rw [List.getElem?_eq_getElem hshort, Option.some.injEq, List.get_eq_getElem, eq_comm]
  have hhead : kToken.head? = some byte ↔ byte = byteOf 'u' := by
    show some (byteOf 'u') = some byte ↔ byte = byteOf 'u'
    rw [Option.some.injEq, eq_comm]
  unfold DfuCommand.feed TokenMatch.advance
  dsimp only
  by_cases hletter : byte = kToken.get ⟨matched, hshort⟩
  · rw [if_pos hletter, if_pos (hnext.mpr hletter)]
    by_cases hlast : matched + 1 = kToken.length
    · rw [dif_pos hlast, if_pos hlast]
    · rw [dif_neg hlast, if_neg hlast]
  · rw [if_neg hletter, if_neg (mt hnext.mp hletter)]
    by_cases hu : byte = byteOf 'u'
    · rw [if_pos hu, if_pos (hhead.mpr hu)]
    · rw [if_neg hu, if_neg (mt hhead.mp hu)]

theorem hooked_onByte (console : DfuConsole) (bytes : List U8) :
    (hooked (some DfuConsole.onByte) console bytes).map Prod.snd =
      TokenMatch.flags kToken console.matcher.matched bytes := by
  induction bytes generalizing console with
  | nil => rfl
  | cons byte bytes ih =>
      have hmatched := congrArg Prod.fst (feed_eq console.matcher byte)
      have hfires := congrArg Prod.snd (feed_eq console.matcher byte)
      rw [hooked, List.map_cons, TokenMatch.flags, ih, ← hmatched, ← hfires]
      rfl

/-- **The shell is the reference editor**: however a stream is split into polls, no access leaves the buffer or a name, the
    line stays short of the buffer, and the lines that end come to what the reference says; and the hook for the bootloader
    request takes the bytes that complete the token. -/
theorem shell_edits_lines (table : CommandTable H) (plainHandler : Option H) (byteHandler : Option (σ → U8 → σ × Bool))
    (byteContext : σ) (line : LineBuffer) (chunks : List (List U8)) :
    (∃ shell events, (Shell.new table plainHandler byteHandler byteContext line).polls chunks = some (shell, events) ∧
      shell.lineLen ≤ kMaxLineLength - 1 ∧
      events.filterMap Event.dispatched = (editAll [] (hooked byteHandler byteContext chunks.flatten)).2.map
        (lineDispatch table.commands plainHandler)) ∧
    (hooked (some DfuConsole.onByte) {} chunks.flatten).map Prod.snd =
      TokenMatch.occurrences kToken [] chunks.flatten := by
  constructor
  · have hempty : (Shell.new table plainHandler byteHandler byteContext line).Holds [] := .empty rfl
    obtain ⟨shell, events, context, hpoll, hfollows⟩ := poll_follows hempty chunks.flatten
    refine ⟨shell, events, (polls_eq_poll _ chunks).trans hpoll, ?_, hfollows.dispatched⟩
    rw [hfollows.holds.length]
    exact hfollows.holds.short
  · rw [hooked_onByte]
    exact TokenMatch.flags_eq_occurrences (by decide) (TokenMatch.longest_nil (by decide)) _

end Lhre.Longhorn
