import Mathlib.Data.BitVec
import Lhre.Drivers.System
import Lhre.Theory.CString

/-!
# `Drivers.Shell` — the debug shell and the bootloader request

`longhorn::Shell` (`drivers/longhorn/include/longhorn/shell.hpp`), the matcher `longhorn::DfuCommand` (`dfu.hpp`) and the
hook that `longhorn::DfuConsole` (`dfu_console.hpp`) installs. A byte is offered to the hook first and edits the line if the
hook does not take it; a line that ends goes to a command, or to the plain-line handler.

The line buffer has a fixed size and every access to it, and to a command's name, is checked: a step is `none` when it
reads or writes outside. The stream is not null; a shell on a null stream reads nothing. A handler is known by its value,
which stands for the function and its context; the locks around the output are left out.

## Contents
- **Data.** `ShellCommand`, `CommandTable`, `LineBuffer`, `Event`, `Shell`.
- **A line.** `findCommand`, `dispatchLine`.
- **A byte.** `handleByte`, `poll`.
- **The bootloader request.** `DfuCommand`, `DfuConsole`.
-/

namespace Lhre.Longhorn

open Lhal

/-! ## Data -/

/-- A string of C: no byte of it is 0. -/
structure CStr where
  bytes : List U8
  nonzero : 0 ∉ bytes := by decide

/-- What a pointer to a string points to. -/
def CStr.ptr (s : CStr) : List U8 := s.bytes ++ [0]

/-- The code of a character. -/
def byteOf (c : Char) : U8 := BitVec.ofNat 8 c.toNat

/-- `ShellCommand`, without the help line. -/
structure ShellCommand (H : Type) where
  name : CStr
  /-- `handler` and `context` -/
  handler : H

def kMaxLineLength : ℕ := 64

def kMaxCommands : ℕ := 16

/-- `commands_` up to `num_commands_`. -/
structure CommandTable (H : Type) where
  commands : List (ShellCommand H)
  size_le : commands.length ≤ kMaxCommands

/-- `AddCommand`. -/
def CommandTable.addCommand {H : Type} (table : CommandTable H) (command : ShellCommand H) : CommandTable H × Bool :=
  if h : table.commands.length < kMaxCommands then
    (⟨table.commands ++ [command], by rw [List.length_append]; exact h⟩, true)
  else (table, false)

/-- The commands every shell has. -/
def builtIns {H : Type} (helpHandler versionHandler uptimeHandler : H) : CommandTable H where
  commands :=
    [{ name := ⟨"help".toList.map byteOf, by decide⟩, handler := helpHandler },
      { name := ⟨"version".toList.map byteOf, by decide⟩, handler := versionHandler },
      { name := ⟨"uptime".toList.map byteOf, by decide⟩, handler := uptimeHandler }]
  size_le := show 3 ≤ 16 by decide

/-- `line_`. -/
structure LineBuffer where
  bytes : List U8
  size : bytes.length = kMaxLineLength

/-- `line_[i] = c`. -/
def LineBuffer.store (line : LineBuffer) (i : ℕ) (c : U8) : Option LineBuffer :=
  if i < kMaxLineLength then some ⟨line.bytes.set i c, by rw [List.length_set, line.size]⟩ else none

/-- What a line comes to. -/
inductive Dispatch (H : Type) where
  | plain (handler : H) (line : List U8)
  | hint
  | run (handler : H) (args : List U8)
  | unknown (name : List U8)

/-- What a byte makes the shell do. -/
inductive Event (H : Type) where
  | echo (bytes : List U8)
  | dispatch (d : Dispatch H)

/-- The lines among what a shell does. -/
def Event.dispatched {H : Type} : Event H → Option (Dispatch H)
  | .echo _ => none
  | .dispatch d => some d

/-- `Shell`, with hooks that have a context of type `σ`. -/
structure Shell (H σ : Type) where
  table : CommandTable H
  plainHandler : Option H := none
  byteHandler : Option (σ → U8 → σ × Bool) := none
  byteContext : σ
  line : LineBuffer
  lineLen : ℕ := 0

section

variable {H σ : Type}

/-- A shell before its first byte. -/
def Shell.new (table : CommandTable H) (plainHandler : Option H) (byteHandler : Option (σ → U8 → σ × Bool))
    (byteContext : σ) (line : LineBuffer) : Shell H σ :=
  { table := table, plainHandler := plainHandler, byteHandler := byteHandler, byteContext := byteContext, line := line }

/-! ## A line -/

/-- `std::strncmp(cmd.name, name, name_len) == 0 && cmd.name[name_len] == '\0'`. -/
def ShellCommand.isNamed (cmd : ShellCommand H) (name : List U8) (nameLen : ℕ) : Option Bool :=
  (CString.strncmp cmd.name.ptr name nameLen).bind fun same =>
    if same then (cmd.name.ptr[nameLen]?).map fun c => decide (c = 0) else some false

/-- The loop over the commands. -/
def findCommand (name : List U8) (nameLen : ℕ) : List (ShellCommand H) → Option (Option (ShellCommand H))
  | [] => some none
  | cmd :: rest =>
      (cmd.isNamed name nameLen).bind fun found => if found then some (some cmd) else findCommand name nameLen rest

/-- The part of `DispatchLine` after the slash. -/
def dispatchCommand (commands : List (ShellCommand H)) (name : List U8) : Option (Dispatch H) :=
  (CString.skip (fun c => decide (c ≠ 0) && decide (c ≠ byteOf ' ')) name).bind fun args =>
    let nameLen := name.length - args.length
    (CString.skip (fun c => decide (c = byteOf ' ')) args).bind fun args =>
      (findCommand name nameLen commands).bind fun found =>
        match found with
        | some cmd => (CString.text args).map (Dispatch.run cmd.handler)
        | none => some (.unknown (name.take nameLen))

/-- `DispatchLine`. -/
def Shell.dispatchLine (shell : Shell H σ) : Option (Shell H σ × Dispatch H) :=
  (shell.line.store shell.lineLen 0).bind fun line =>
    let shell := { shell with line := line, lineLen := 0 }
    (line.bytes.head?).bind fun first =>
      if first ≠ byteOf '/' then
        match shell.plainHandler with
        | some handler => (CString.text line.bytes).map fun text => (shell, .plain handler text)
        | none => some (shell, .hint)
      else (dispatchCommand shell.table.commands line.bytes.tail).map fun d => (shell, d)

/-! ## A byte -/

/-- `HandleByte`. -/
def Shell.handleByte (shell : Shell H σ) (c : U8) : Option (Shell H σ × List (Event H)) :=
  if c = byteOf '\r' ∨ c = byteOf '\n' then
    if 0 < shell.lineLen then
      shell.dispatchLine.map fun done => (done.1, [.echo ("\r\n".toList.map byteOf), .dispatch done.2])
    else some (shell, [])
  else if c = 0x08 ∨ c = 0x7F then
    if 0 < shell.lineLen then
      some ({ shell with lineLen := shell.lineLen - 1 }, [.echo [0x08, byteOf ' ', 0x08]])
    else some (shell, [])
  else if c < 0x20 ∨ 0x7E < c then some (shell, [])
  else if shell.lineLen < kMaxLineLength - 1 then
    (shell.line.store shell.lineLen c).map fun line =>
      ({ shell with line := line, lineLen := shell.lineLen + 1 }, [.echo [c]])
  else some (shell, [])

/-- One turn of the loop of `Poll`. -/
def Shell.receive (shell : Shell H σ) (byte : U8) : Option (Shell H σ × List (Event H)) :=
  match shell.byteHandler with
  | some hook =>
      let (context, consumed) := hook shell.byteContext byte
      let shell := { shell with byteContext := context }
      if consumed then some ({ shell with lineLen := 0 }, []) else shell.handleByte byte
  | none => shell.handleByte byte

/-- `Poll` on the bytes that are pending. -/
def Shell.poll (shell : Shell H σ) : List U8 → Option (Shell H σ × List (Event H))
  | [] => some (shell, [])
  | byte :: pending =>
      (shell.receive byte).bind fun first =>
        (first.1.poll pending).map fun rest => (rest.1, first.2 ++ rest.2)

/-- A stream of bytes, split into what is pending at each `Poll`. -/
def Shell.polls (shell : Shell H σ) : List (List U8) → Option (Shell H σ × List (Event H))
  | [] => some (shell, [])
  | pending :: later =>
      (shell.poll pending).bind fun first =>
        (first.1.polls later).map fun rest => (rest.1, first.2 ++ rest.2)

end

/-! ## The bootloader request -/

/-- `kToken`. -/
def kToken : List U8 := "update.".toList.map byteOf

/-- `DfuCommand`; what is matched is short of the token. -/
structure DfuCommand where
  matched : ℕ := 0
  short : matched < kToken.length := by decide

/-- `DfuCommand::Feed`. -/
def DfuCommand.feed (command : DfuCommand) (byte : U8) : DfuCommand × Bool :=
  if byte = kToken.get ⟨command.matched, command.short⟩ then
    if h : command.matched + 1 = kToken.length then ({}, true)
    else (⟨command.matched + 1, by have := command.short; omega⟩, false)
  else (if byte = byteOf 'u' then ⟨1, by decide⟩ else {}, false)

/-- `DfuConsole`. -/
structure DfuConsole where
  matcher : DfuCommand := {}
  request : Bool := false

/-- `DfuConsole::OnByte`. -/
def DfuConsole.onByte (console : DfuConsole) (byte : U8) : DfuConsole × Bool :=
  let (matcher, isMatch) := console.matcher.feed byte
  ({ matcher := matcher, request := isMatch || console.request }, isMatch)

end Lhre.Longhorn
