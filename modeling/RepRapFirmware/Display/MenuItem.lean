import Mathlib

/-!
# Menu items

The 12864 display's menus are lists of items read from the files in `/menu`
(`Menu.cpp`). This module models the items and the methods `Menu` calls on them:
`Select` when the encoder is pressed, `Advance` and `Enter` when it scrolls, and
`Adjust` while an item is being adjusted.

`Menu.cpp` is newer than `MenuItem.h` and `MenuItem.cpp`: it creates a `TextMenuItem`,
which neither file defines, passes `FilesMenuItem` a file name its constructor does not
take, and calls `CanAdjust` and `GetVisibilityRowOffset`, which neither declares. The
model follows `MenuItem.cpp` where it has the code. `CanAdjust` is a parameter of the
menu (`Display.MenuEnv.canAdjust`); the row offset and everything else the items only
draw (positions, fonts, widths, a `ValueMenuItem`'s float value) are left out.

Strings are C strings without their terminating NUL, one `Char` per byte. A string
`AppendString` stored for an item is a `BufStr`: a copy in the command buffer, or the
pointer one past the buffer's end that it returns once the buffer is full. Undefined
behaviour is a `MenuFault`.
-/

set_option autoImplicit false

namespace Display

/-- A C string, without its terminating NUL; one `Char` per byte. -/
abbrev CStr := List Char

/-- `Menu::CommandBufferSize`, the bytes of `commandBuffer`. -/
def commandBufferSize : Nat := 512

/-- The undefined behaviour the menu code can run into. -/
inductive MenuFault
  /-- `filenames[i]` with `i` outside the `MaxMenuNesting` entries. -/
  | filenameIndex (i : Nat)
  /-- A null string handed to `SafeStrncpy` or `strcmp`. -/
  | nullString
  /-- A read through `commandBuffer + 512`, one past the buffer. -/
  | pastBuffer
  /-- A call through the null item `FindHighlightedItem` returned. -/
  | nullItem
  /-- A copy longer than its destination array. -/
  | overflow
  /-- A read of the `FileInfo` that `FindFirst` left unset on an empty directory. -/
  | unsetFileInfo
  /-- `m_nHighlightedItem += action` outside the range of `int`. -/
  | intOverflow
  /-- A wrap-around loop of the highlight that never ends: there is no selectable item. -/
  | endlessLoop
  deriving DecidableEq, Repr

/-- A pointer `AppendString` returned: a NUL-terminated copy in `commandBuffer`, or
`commandBuffer + 512` once the buffer is full. -/
inductive BufStr
  | copy (s : CStr)
  | pastEnd
  deriving DecidableEq, Repr

/-- Reading the string a `BufStr` points to. -/
def BufStr.read : BufStr → Except MenuFault CStr
  | .copy s => .ok s
  | .pastEnd => .error .pastBuffer

/-- `StringContains(string, match)` of the firmware's string library (not under src/):
the index just past the first match, or -1. The scan restarts the match at the next
character after a mismatch, without testing the mismatching character again. -/
def stringContains (string pattern : CStr) : Int :=
  go string 0 0
where
  /-- The scan at position `i` with `count` characters of `pattern` matched. -/
  go : CStr → Nat → Nat → Int
    | [], _, _ => -1
    | c :: cs, i, count =>
      if pattern.get? count = some c then
        if count + 1 = pattern.length then i + 1 else go cs (i + 1) (count + 1)
      else go cs (i + 1) 0

/-- The scan answers -1, or an index just past a character it has scanned. -/
theorem stringContains.go_cases (pattern : CStr) : ∀ (s : CStr) (i count : Nat),
    stringContains.go pattern s i count = -1 ∨
      ((i : Int) + 1 ≤ stringContains.go pattern s i count ∧
        stringContains.go pattern s i count ≤ i + s.length)
  | [], _, _ => .inl rfl
  | c :: cs, i, count => by
    unfold stringContains.go
    have ih₁ := stringContains.go_cases pattern cs (i + 1) (count + 1)
    have ih₀ := stringContains.go_cases pattern cs (i + 1) 0
    simp only [List.length_cons] at ih₁ ih₀ ⊢
    split_ifs <;> omega

/-- The scan passes over a prefix without the pattern's first character. -/
theorem stringContains.go_append_of_not_mem (p : Char) (ps : CStr) {pre : CStr} (h : p ∉ pre)
    (rest : CStr) (i : Nat) :
    stringContains.go (p :: ps) (pre ++ rest) i 0 = stringContains.go (p :: ps) rest (i + pre.length) 0 := by
  induction pre generalizing i with
  | nil => rfl
  | cons c pre ih =>
    have hc : ¬ some p = some c := fun e => h (Option.some.inj e ▸ List.mem_cons_self c pre)
    rw [List.cons_append, stringContains.go, List.get?_cons_zero, if_neg hc,
      ih (fun hm => h (List.mem_cons_of_mem c hm)), List.length_cons, Nat.add_assoc, Nat.add_comm 1]

/-- `StringContains` answers -1 or an index just past a character of the string. -/
theorem stringContains_cases (s pattern : CStr) :
    stringContains s pattern = -1 ∨
      (1 ≤ stringContains s pattern ∧ stringContains s pattern ≤ s.length) := by
  have := stringContains.go_cases pattern s 0 0
  unfold stringContains
  omega

/-- `StringEquals(s1, s2)` of the firmware's string library (not under src/): equal
ignoring the case of ASCII letters. -/
def stringEquals (s1 s2 : CStr) : Bool :=
  s1.map Char.toLower == s2.map Char.toLower

/-- The double quote that delimits string arguments and the file name `#0` stands for. -/
def quoteChar : Char := Char.ofNat 34

/-- `SafeStrncpy(dst, src, length)` (not under src/): at most `length - 1` characters
and a NUL. -/
def safeStrncpy (src : CStr) (length : Nat) : CStr := src.take (length - 1)

/-- An entry of a directory listing, as `FindFirst` and `FindNext` report it. -/
structure FileInfo where
  fileName : CStr
  isDirectory : Bool
  deriving DecidableEq, Repr

/-- What the menu does outside itself, in order. -/
inductive MenuEffect
  /-- `ProcessCommandFromLcd(cmd)`, with a long low beep if it is refused. -/
  | command (cmd : CStr) (accepted : Bool)
  /-- A printer setting written by `ValueMenuItem::Adjust_SelectHelper` for value `N`. -/
  | setValue (valIndex : Nat)
  /-- `ErrorBeep()`. -/
  | errorBeep
  /-- `LoadError(msg, line)`'s screen, naming the menu file. -/
  | loadError (fname msg : CStr) (line : Nat)
  deriving DecidableEq, Repr

/-! ## The items -/

/-- A `ButtonMenuItem`: its label, its action and its `L` file name. -/
structure ButtonItem where
  text : BufStr
  command : BufStr
  file : BufStr
  deriving DecidableEq, Repr

/-- A `ValueMenuItem`: the value it shows (`N`), and whether it is being adjusted. -/
structure ValueItem where
  valIndex : Nat
  adjusting : Bool
  deriving DecidableEq, Repr

/-- A `FilesMenuItem`: its action, its directory, the lines it shows, and its position
in the listing (all `unsigned int`). `acCommand` is `m_acCommand`, the command `Select`
builds. -/
structure FilesItem where
  command : BufStr
  initialDirectory : BufStr
  currentDirectory : CStr
  displayLines : UInt32
  totalFiles : UInt32
  firstFileVisible : UInt32
  currentSelectedFile : UInt32
  acCommand : CStr
  deriving DecidableEq, Repr

/-- An item of a menu. `text` is the `TextMenuItem` `Menu.cpp` creates for a `text`
line; its class is not in src/, and it is only ever added as unselectable. -/
inductive MenuItem
  | text (text : BufStr)
  | button (b : ButtonItem)
  | value (v : ValueItem)
  | files (f : FilesItem)
  deriving DecidableEq, Repr

/-! ## `FilesMenuItem` -/

namespace FilesItem

variable (listing : CStr → List FileInfo) (maxFilenameLength : Nat)

/-- The constructor, with its call of `EnterDirectory(initialDirectory)`: copy the
directory name and count its entries. -/
def create (command dir : BufStr) (nf : UInt32) : Except MenuFault FilesItem := do
  let d ← dir.read
  let cur := safeStrncpy d maxFilenameLength
  .ok { command, initialDirectory := dir, currentDirectory := cur, displayLines := nf,
        totalFiles := UInt32.ofNat (listing cur).length, firstFileVisible := 0,
        currentSelectedFile := 0, acCommand := [] }

/-- `Enter(bForwardDirection)`: the first entry, or the last with the view at the end. -/
def enter (f : FilesItem) (forward : Bool) : FilesItem :=
  if forward then { f with currentSelectedFile := 0, firstFileVisible := 0 }
  else { f with currentSelectedFile := f.totalFiles - 1,
                firstFileVisible := if f.totalFiles > f.displayLines
                  then f.totalFiles - f.displayLines else 0 }

/-- The `while (nCounts > 0)` loop of `Advance`, with `n` counts left. -/
def advanceDown (f : FilesItem) : Nat → FilesItem × Nat
  | 0 => (f, 0)
  | n + 1 =>
    if f.totalFiles = f.currentSelectedFile + 1 then (f, n + 1)
    else
      let f := { f with currentSelectedFile := f.currentSelectedFile + 1 }
      let f := if f.currentSelectedFile = f.firstFileVisible + f.displayLines
        then { f with firstFileVisible := f.firstFileVisible + 1 } else f
      advanceDown f n

/-- The `while (nCounts < 0)` loop of `Advance`, with `n` counts left. -/
def advanceUp (f : FilesItem) : Nat → FilesItem × Nat
  | 0 => (f, 0)
  | n + 1 =>
    if f.currentSelectedFile = 0 then (f, n + 1)
    else
      let f := { f with currentSelectedFile := f.currentSelectedFile - 1 }
      let f := if f.currentSelectedFile < f.firstFileVisible
        then { f with firstFileVisible := f.firstFileVisible - 1 } else f
      advanceUp f n

/-- `Advance(nCounts)`: move the selection, and return the counts it could not use. -/
def advance (f : FilesItem) (nCounts : Int) : FilesItem × Int :=
  if 0 < nCounts then
    let r := f.advanceDown nCounts.toNat
    (r.1, r.2)
  else if nCounts < 0 then
    let r := f.advanceUp (-nCounts).toNat
    (r.1, -(r.2 : Int))
  else (f, 0)

/-- The entry the directory scan of `Select` stops at: the selected one, or the last
entry when the listing is shorter. -/
def scanEntry (entries : List FileInfo) (selected : Nat) : Option FileInfo :=
  match entries with
  | [] => none
  | e :: es => if selected = 0 then some e else (scanEntry es (selected - 1)).orElse fun _ => some e

/-- `Select()`: for a file, `command` with its first `#0` replaced by the file name in
double quotes, built in `m_acCommand` (`MaxFilenameLength + 20` bytes); for a
directory, null. -/
def select (f : FilesItem) : Except MenuFault (FilesItem × Option CStr) := do
  let some e := scanEntry (listing f.currentDirectory) f.currentSelectedFile.toNat
    | .error .unsetFileInfo
  if e.isDirectory then .ok (f, none)
  else
    let command ← f.command.read
    if command.length + 1 > maxFilenameLength + 20 then .error .overflow
    else
      let i := stringContains command "#0".toList
      if i = -1 then .ok ({ f with acCommand := command }, some command)
      else
        let j := i.toNat - 2
        if j + e.fileName.length + 3 > maxFilenameLength + 20 then .error .overflow
        else
          let cmd := command.take j ++ [quoteChar] ++ e.fileName ++ [quoteChar]
          .ok ({ f with acCommand := cmd }, some cmd)

end FilesItem

/-! ## The virtual methods -/

/-- The printer call `ValueMenuItem::Adjust_SelectHelper` makes for value `N`: a heater
temperature, a fan, an extrusion factor, the speed factor or the tool; an error beep for
any other `N`. -/
def adjustSelectEffect (valIndex : Nat) : MenuEffect :=
  if valIndex / 100 ∈ [1, 2, 3, 4] ∨ (valIndex / 100 = 5 ∧ valIndex % 100 ∈ [0, 20])
  then .setValue valIndex else .errorBeep

namespace MenuItem

variable (listing : CStr → List FileInfo) (maxFilenameLength : Nat)

/-- `Select()`: the string to run, or `none` (a null pointer) for adjustment mode. A
button compares its action with `menu` and returns its file name for it, its action
otherwise; a value item starts adjusting. A text item is never selectable. -/
def select : MenuItem → Except MenuFault (MenuItem × Option BufStr)
  | .text t => .ok (.text t, none)
  | .button b => do
    let command ← b.command.read
    .ok (.button b, some (if command = "menu".toList then b.file else b.command))
  | .value v => .ok (.value { v with adjusting := true }, none)
  | .files f => do
    let (f, cmd) ← f.select listing maxFilenameLength
    .ok (.files f, cmd.map .copy)

/-- `Advance(nCounts)`: only a file list uses scroll counts itself. -/
def advance : MenuItem → Int → MenuItem × Int
  | .files f, n => let r := f.advance n; (.files r.1, r.2)
  | item, n => (item, n)

/-- `Enter(bForwardDirection)`: only a file list moves its selection. -/
def enter : MenuItem → Bool → MenuItem
  | .files f, b => .files (f.enter b)
  | item, _ => item

/-- `Adjust(clicks)`: the item after it, whether adjustment is finished, and the printer
call it made. A value item writes its value on a push and finishes; a scroll alters the
value, which the model leaves out. Every other item finishes at once. -/
def adjust : MenuItem → Int → MenuItem × Bool × Option MenuEffect
  | .value v, clicks =>
    if clicks = 0 then (.value { v with adjusting := false }, true, some (adjustSelectEffect v.valIndex))
    else (.value v, false, none)
  | item, _ => (item, true, none)

end MenuItem

end Display
