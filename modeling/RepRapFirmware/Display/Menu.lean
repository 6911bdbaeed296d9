import RepRapFirmware.Display.MenuItem

/-!
# The menu

`Menu` (`Menu.cpp`) holds the items of the innermost menu, the names of the menu files
that led to it, the highlighted item, and whether that item is being adjusted. A menu
file is parsed line by line into items (`ParseMenuLine`), their strings kept in a
512-byte command buffer (`AppendString`). The encoder drives the menu
(`EncoderAction`): a scroll moves the highlight, a push runs the highlighted item's
action string, whose `|`-separated fields may load a menu file (`Load`), return to the
parent menu (`Pop`), or send G-code. `Refresh` goes back to the `main` menu after 20 s
without an encoder action.

The model keeps everything these functions read and write apart from the display:
row, column, font, margins and the row offset only place what is drawn, and are left
out. The rest of the firmware is a `MenuEnv`: the menu files, the directory listings,
the printer's state, and the results of the G-code commands. `size_t` is 32 bits
wide, as on the SAM processors. Undefined behaviour is a `MenuFault`, so every state a
run reaches without one is a state of the C++ program.
-/

set_option autoImplicit false

namespace Display

/-- `Menu::MaxMenuNesting`, the entries of `filenames`. -/
def maxMenuNesting : Nat := 5

/-- `Menu::MaxMenuFilenameLength`, the characters a `String<MaxMenuFilenameLength>`
holds. -/
def maxMenuFilenameLength : Nat := 18

/-- `n - 1` for a `size_t`, which is 32 bits wide on the SAM processors. -/
def sizeDec (n : Nat) : Nat := (n + 2 ^ 32 - 1) % 2 ^ 32

/-- What the menu reads from the rest of the firmware. -/
structure MenuEnv where
  /-- The lines `FileStore::ReadLine` delivers for a file of `/menu` before it first
  returns 0 or less, at the first empty line, the end of the file or a read error, where
  `Reload` stops reading; `none` when `OpenFile` fails. -/
  menuFile : CStr → Option (List CStr)
  /-- A directory's entries, as `FindFirst` and `FindNext` report them. -/
  listing : CStr → List FileInfo
  /-- Whether `GCodes::ProcessCommandFromLcd` accepts a command. -/
  processCommand : CStr → Bool
  /-- `MenuItem::CanAdjust`, which is not in src/. -/
  canAdjust : MenuItem → Bool
  /-- `MaxFilenameLength`, which is not in src/. -/
  maxFilenameLength : Nat
  /-- `GCodes::IsReallyPrinting`. -/
  isReallyPrinting : Bool
  /-- `PrintMonitor::IsPrinting`. -/
  isPrinting : Bool
  /-- `GCodes::IsPaused`. -/
  isPaused : Bool
  /-- `GCodes::IsPausing`. -/
  isPausing : Bool
  /-- `GCodes::IsResuming`. -/
  isResuming : Bool
  /-- `MassStorage::IsDriveMounted(0)`. -/
  isDriveMounted : Bool

/-- The state of `Menu`. `effects` records what the menu did outside itself, oldest
first. -/
structure Menu where
  filenames : Fin maxMenuNesting → CStr
  numNestedMenus : Nat
  selectableItems : List MenuItem
  unSelectableItems : List MenuItem
  numSelectableItems : Int
  highlightedItem : Int
  itemIsSelected : Bool
  timeoutEnabled : Bool
  lastActionTime : UInt32
  commandBufferIndex : Nat
  effects : List MenuEffect

namespace Menu

/-- The constructor, at time `now`. -/
def init (now : UInt32) : Menu where
  filenames _ := []
  numNestedMenus := 0
  selectableItems := []
  unSelectableItems := []
  numSelectableItems := 0
  highlightedItem := 0
  itemIsSelected := false
  timeoutEnabled := false
  lastActionTime := now
  commandBufferIndex := 0
  effects := []

/-! ## The item cache and the command buffer -/

/-- `ResetCache()`: delete every item. -/
def resetCache (m : Menu) : Menu :=
  { m with selectableItems := [], unSelectableItems := [], numSelectableItems := 0,
           highlightedItem := 0 }

/-- `AddItem(item, isSelectable)`. -/
def addItem (m : Menu) (item : MenuItem) (isSelectable : Bool) : Menu :=
  if isSelectable then
    { m with selectableItems := m.selectableItems ++ [item],
             numSelectableItems := m.numSelectableItems + 1 }
  else { m with unSelectableItems := m.unSelectableItems ++ [item] }

/-- `AppendString(s)`, with `none` for a null `s`: copy `s` into the command buffer
while there is room, and return where it starts. -/
def appendString (m : Menu) (s : Option CStr) : Except MenuFault (Menu × BufStr) :=
  if m.commandBufferIndex < commandBufferSize then
    match s with
    | none => .error .nullString
    | some s =>
      let c := safeStrncpy s (commandBufferSize - m.commandBufferIndex)
      .ok ({ m with commandBufferIndex := m.commandBufferIndex + c.length + 1 }, .copy c)
  else .ok (m, .pastEnd)

/-- `filenames[numNestedMenus - 1]`, the file of the innermost menu. -/
def currentFilename (m : Menu) : Except MenuFault CStr :=
  if h : sizeDec m.numNestedMenus < maxMenuNesting then .ok (m.filenames ⟨_, h⟩)
  else .error (.filenameIndex (sizeDec m.numNestedMenus))

/-- `LoadError(msg, line)`: delete the items and show the error for the innermost menu
file. -/
def loadError (m : Menu) (msg : CStr) (line : Nat) : Except MenuFault Menu := do
  let m := m.resetCache
  let fname ← m.currentFilename
  .ok { m with effects := m.effects ++ [.loadError fname msg line] }

/-! ## Parsing a menu file -/

/-- `isspace` of the C library. -/
def isSpace (c : Char) : Bool :=
  c == ' ' || c == '\t' || c == '\n' || c.toNat == 11 || c.toNat == 12 || c == '\r'

/-- The value of a string of decimal digits. -/
def decimalValue (ds : CStr) : Nat :=
  ds.foldl (fun v c => 10 * v + (c.toNat - '0'.toNat)) 0

/-- The sign `strtoul` accepts before the digits, and what follows it. -/
def signOf : CStr → Bool × CStr
  | '-' :: u => (true, u)
  | '+' :: u => (false, u)
  | t => (false, t)

/-- `strtoul(s, &end, 10)` with a 32-bit `unsigned long`: the value and the rest of the
string. Leading white space and a sign are skipped, a negative value is negated modulo
`2^32`, a value out of range gives `ULONG_MAX`, and with no digits the value is 0 and
nothing is consumed. -/
def strtoul (s : CStr) : Nat × CStr :=
  let (neg, u) := signOf (s.dropWhile isSpace)
  let ds := u.takeWhile Char.isDigit
  if ds = [] then (0, s)
  else
    let v := decimalValue ds
    (if 2 ^ 32 ≤ v then 2 ^ 32 - 1 else if neg then (2 ^ 32 - v) % 2 ^ 32 else v,
     u.dropWhile Char.isDigit)

theorem signOf_length_le (t : CStr) : (signOf t).2.length ≤ t.length := by
  unfold signOf
  split <;> simp

/-- `strtoul` never moves the end pointer past the end of the string. -/
theorem strtoul_rest_length (s : CStr) : (strtoul s).2.length ≤ s.length := by
  unfold strtoul
  split
  next neg u hsign =>
    have hu := signOf_length_le (s.dropWhile isSpace)
    rw [hsign] at hu
    dsimp only
    split_ifs
    all_goals first
      | exact Nat.le_refl _
      | exact (List.dropWhile_suffix _).length_le.trans
          (hu.trans (List.dropWhile_suffix _).length_le)

/-- The arguments of a menu line that its items use. The row, column, font, decimals
and width arguments only place and format what is drawn: they are parsed and dropped. -/
structure LineArgs where
  nparam : Nat
  text : CStr
  fname : CStr
  dirpath : CStr
  action : Option CStr
  deriving DecidableEq, Repr

/-- The defaults `ParseMenuLine` starts from; `action` is null. -/
def LineArgs.initial : LineArgs := ⟨0, ['*'], "main".toList, [], none⟩

/-- The string argument `ch` sets: `T`, `A`, `I`, and `L` for any other. -/
def LineArgs.setString (a : LineArgs) (ch : Char) (s : CStr) : LineArgs :=
  if ch = 'T' then { a with text := s }
  else if ch = 'A' then { a with action := some s }
  else if ch = 'I' then { a with dirpath := s }
  else { a with fname := s }

/-- The argument loop of `ParseMenuLine`, run with `fuel` iterations at most; each
iteration consumes a character, so the length of the arguments is enough
(`parseArgs_fuel`). An error is the message `ParseMenuLine` returns. -/
def parseArgs : Nat → LineArgs → CStr → Except CStr LineArgs
  | 0, a, _ => .ok a
  | _ + 1, a, [] => .ok a
  | n + 1, a, c :: cs =>
    if c = ';' then .ok a
    else match c.toUpper with
      | ' ' | '\t' => parseArgs n a cs
      | 'R' | 'C' | 'F' | 'D' | 'W' => parseArgs n a (strtoul cs).2
      | 'N' => let r := strtoul cs; parseArgs n { a with nparam := r.1 } r.2
      | 'T' | 'L' | 'A' | 'I' =>
        match cs with
        | q :: str =>
          if q = quoteChar then
            parseArgs n (a.setString c.toUpper (str.takeWhile (· != quoteChar)))
              ((str.dropWhile (· != quoteChar)).drop 1)
          else .error "Missing string arg".toList
        | [] => .error "Missing string arg".toList
      | _ => .error "Bad arg letter".toList

/-- A string argument consumes its opening quote at least. -/
theorem length_drop_dropWhile_lt (p : Char → Bool) (q : Char) (str : CStr) :
    ((str.dropWhile p).drop 1).length < (q :: str).length := by
  have := (@List.dropWhile_suffix _ str p).length_le
  simp only [List.length_drop, List.length_cons]
  omega

/-- One more iteration of fuel changes nothing once the fuel covers the arguments. -/
theorem parseArgs_succ : ∀ (n : Nat) (a : LineArgs) (args : CStr), args.length ≤ n →
    parseArgs (n + 1) a args = parseArgs n a args
  | 0, a, [], _ => rfl
  | n + 1, a, [], _ => rfl
  | n + 1, a, c :: cs, h => by
    have hcs : cs.length ≤ n := Nat.le_of_succ_le_succ h
    dsimp only [parseArgs]
    split_ifs
    · rfl
    · -- every branch of the letter stops, or goes on with a shorter rest
      split
      all_goals first
        | exact parseArgs_succ n _ _ hcs
        | exact parseArgs_succ n _ _ ((strtoul_rest_length cs).trans hcs)
        | rfl
        | (cases cs with
          | nil => rfl
          | cons q str =>
            dsimp only
            split_ifs
            · exact parseArgs_succ n _ _
                (Nat.le_of_lt (Nat.lt_of_lt_of_le (length_drop_dropWhile_lt _ q str) hcs))
            · rfl)

/-- Fuel beyond the length of the arguments changes nothing: the loop has ended by then. -/
theorem parseArgs_fuel {a : LineArgs} {args : CStr} {n : Nat} (h : args.length ≤ n) :
    parseArgs n a args = parseArgs args.length a args := by
  induction n, h using Nat.le_induction with
  | base => rfl
  | succ k hk ih => rw [parseArgs_succ k a args hk, ih]

/-- The command word at the start of a line and the arguments after its separator, or
`none` when the line does not start with a word followed by a blank or the end. -/
def splitCommandWord (line : CStr) : Option (CStr × CStr) :=
  let word := line.takeWhile Char.isAlpha
  if word = [] then none
  else match line.dropWhile Char.isAlpha with
    | [] => some (word, [])
    | c :: args => if c = ' ' ∨ c = '\t' then some (word, args) else none

/-- `ShowBasedOnPrinterState(acText, acDescription)`: whether a button is shown. -/
def showBasedOnPrinterState (env : MenuEnv) (acText acDescription : CStr) : Bool :=
  if acDescription = "s_prepare".toList then !env.isReallyPrinting
  else if acDescription = "s_tune".toList then env.isReallyPrinting
  else if acText = "Print from SD ".toList ++ ['\xC2', '\xBB'] then !env.isPrinting
  else if acText = "Resume Print".toList then env.isPaused || env.isPausing
  else if acText = "Pause Print".toList then env.isReallyPrinting || env.isResuming
  else if acText = "Mount SD".toList then !env.isDriveMounted
  else if acText = "Unmount SD".toList then env.isDriveMounted
  else if acText = "Cancel Print".toList then env.isPrinting
  else true

/-- The second half of `ParseMenuLine`: create the item a line describes. -/
def addLineItem (env : MenuEnv) (m : Menu) (word : CStr) (a : LineArgs) :
    Except MenuFault (Menu × Option CStr) :=
  if stringEquals word "text".toList then do
    let (m, t) ← m.appendString (some a.text)
    .ok (m.addItem (.text t) false, none)
  else if stringEquals word "image".toList then .ok (m, none)
  else if stringEquals word "button".toList then
    if showBasedOnPrinterState env a.text a.fname then do
      let (m, t) ← m.appendString (some a.text)
      let (m, c) ← m.appendString a.action
      let (m, f) ← m.appendString (some a.fname)
      .ok (m.addItem (.button ⟨t, c, f⟩) true, none)
    else .ok (m, none)
  else if stringEquals word "value".toList then
    .ok (m.addItem (.value ⟨a.nparam, false⟩) false, none)
  else if stringEquals word "alter".toList then
    .ok (m.addItem (.value ⟨a.nparam, false⟩) true, none)
  else if stringEquals word "files".toList then do
    let (m, c) ← m.appendString a.action
    let (m, d) ← m.appendString (some a.dirpath)
    let (m, _) ← m.appendString (some a.fname)
    let f ← FilesItem.create env.listing env.maxFilenameLength c d (UInt32.ofNat a.nparam)
    .ok (m.addItem (.files f) true, none)
  else .ok (m, some "Unknown command".toList)

/-- `ParseMenuLine(commandWord)`: add the item a line describes, and return the error
message, if any. -/
def parseMenuLine (env : MenuEnv) (m : Menu) (commandWord : CStr) :
    Except MenuFault (Menu × Option CStr) :=
  if commandWord.head? = some ';' ∨ commandWord = [] then .ok (m, none)
  else match splitCommandWord commandWord with
    | none => .ok (m, some "Bad command".toList)
    | some (word, args) =>
      match parseArgs args.length LineArgs.initial args with
      | .error msg => .ok (m, some msg)
      | .ok a => m.addLineItem env word a

/-- `SkipWhitespace(s)`. -/
def skipWhitespace (s : CStr) : CStr := s.dropWhile fun c => c == ' ' || c == '\t'

/-- The line loop of `Reload`, from line number `line`: stop at the first error, or
when the command buffer is full. -/
def parseLines (env : MenuEnv) : Menu → Nat → List CStr → Except MenuFault Menu
  | m, _, [] => .ok m
  | m, line, l :: ls => do
    let (m, errMsg) ← m.parseMenuLine env (skipWhitespace l)
    match errMsg with
    | some msg => m.loadError msg line
    | none =>
      if m.commandBufferIndex = commandBufferSize then
        m.loadError "|Menu buffer full".toList line
      else parseLines env m (line + 1) ls

/-! ## Loading menus -/

/-- `Reload()`: rebuild the items from the innermost menu file. -/
def reload (env : MenuEnv) (m : Menu) : Except MenuFault Menu := do
  let m := m.resetCache
  let fname ← m.currentFilename
  match env.menuFile fname with
  | none => m.loadError "Can't open menu file".toList 0
  | some lines => parseLines env { m with commandBufferIndex := 0 } 1 lines

/-- `Load(filename)`: push a menu file, if there is room for it. -/
def load (env : MenuEnv) (m : Menu) (filename : CStr) : Except MenuFault Menu :=
  if h : m.numNestedMenus < maxMenuNesting then
    reload env { m with
      filenames := Function.update m.filenames ⟨_, h⟩ (filename.take maxMenuFilenameLength)
      numNestedMenus := m.numNestedMenus + 1 }
  else .ok m

/-- `Pop()`: go back to the parent menu. -/
def pop (env : MenuEnv) (m : Menu) : Except MenuFault Menu :=
  reload env { m with numNestedMenus := sizeDec m.numNestedMenus }

/-! ## The encoder -/

/-- `FindHighlightedItem()`: the selectable item at the highlight, counting a negative
highlight as 0; `none` is the null pointer. -/
def findHighlightedItem (m : Menu) : Option MenuItem :=
  m.selectableItems.get? m.highlightedItem.toNat

/-- The highlighted item after a method changed it in place. -/
def setHighlightedItem (m : Menu) (item : MenuItem) : Menu :=
  { m with selectableItems := m.selectableItems.set m.highlightedItem.toNat item }

/-- `EncoderAction_ExecuteHelper(cmd)`: one field of an action string. -/
def executeHelper (env : MenuEnv) (m : Menu) (cmd : CStr) : Except MenuFault Menu :=
  if cmd.head? = some 'G' ∨ cmd.head? = some 'M' ∨ cmd.head? = some 'T' then
    .ok { m with effects := m.effects ++ [.command cmd (env.processCommand cmd)] }
  else if cmd = "return".toList then m.pop env
  else m.load env cmd

/-- The loop of `EncoderAction_EnterItemHelper` over the `|`-separated fields of an
action string, run with `fuel` iterations at most; each iteration consumes a field and
its `|`, so the length of the string is enough (`executeFields_fuel`). -/
def executeFields (env : MenuEnv) : Nat → Menu → CStr → Except MenuFault Menu
  | 0, m, cmd => m.executeHelper env cmd
  | n + 1, m, cmd =>
    let i := stringContains cmd ['|']
    if i = -1 then m.executeHelper env cmd
    else do
      let m ← m.executeHelper env (cmd.take (i.toNat - 1))
      executeFields env n m (cmd.drop i.toNat)

/-- One more iteration of fuel changes nothing once the fuel covers the action string. -/
theorem executeFields_succ (env : MenuEnv) : ∀ (n : Nat) (m : Menu) (cmd : CStr),
    cmd.length ≤ n → executeFields env (n + 1) m cmd = executeFields env n m cmd
  | 0, m, [], _ => by
    rw [executeFields.eq_2, if_pos (show stringContains [] ['|'] = -1 from rfl),
      executeFields.eq_1]
  | n + 1, m, cmd, h => by
    rw [executeFields.eq_2, executeFields.eq_2]
    split_ifs with hi
    · rfl
    · have hlen : (cmd.drop (stringContains cmd ['|']).toNat).length ≤ n := by
        have := stringContains_cases cmd ['|']
        simp only [List.length_drop]
        omega
      exact congrArg (_ >>= ·) (funext fun m₁ => executeFields_succ env n m₁ _ hlen)

/-- Fuel beyond the length of the action string changes nothing: the loop has ended by
then. -/
theorem executeFields_fuel {env : MenuEnv} {m : Menu} {cmd : CStr} {n : Nat}
    (h : cmd.length ≤ n) : executeFields env n m cmd = executeFields env cmd.length m cmd := by
  induction n, h using Nat.le_induction with
  | base => rfl
  | succ k hk ih => rw [executeFields_succ env k m cmd hk, ih]

/-- `EncoderAction_EnterItemHelper()`: select the highlighted item, and run the action
string it returns from a copy in `acCurrentCommand` (`MaxFilenameLength + 20` bytes), or
start adjusting it. -/
def enterItemHelper (env : MenuEnv) (m : Menu) : Except MenuFault Menu :=
  match m.findHighlightedItem with
  | none => .ok m
  | some item => do
    let (item, cmd) ← item.select env.listing env.maxFilenameLength
    let m := m.setHighlightedItem item
    match cmd with
    | some p => do
      let c ← p.read
      if c.length + 1 > env.maxFilenameLength + 20 then .error .overflow
      else executeFields env c.length m c
    | none => .ok (if env.canAdjust item then { m with itemIsSelected := true } else m)

/-- `EncoderAction_ExitItemHelper(action)`: hand the action to the item being adjusted. -/
def exitItemHelper (m : Menu) (action : Int) : Menu :=
  match m.findHighlightedItem with
  | some item =>
    let (item, done, effect) := item.adjust action
    let m := { m.setHighlightedItem item with effects := m.effects ++ effect.toList }
    if done then { m with itemIsSelected := false } else m
  | none => { m with itemIsSelected := false }

/-- The first wrap-around loop of `EncoderAction_AdjustItemHelper`: add
`numSelectableItems` while the highlight is negative. -/
def raiseHighlight (num h : Int) : Except MenuFault Int :=
  if h < 0 then
    if 0 < num then raiseHighlight num (h + num) else .error .endlessLoop
  else .ok h
termination_by (-h).toNat
decreasing_by omega

/-- The second wrap-around loop of `EncoderAction_AdjustItemHelper`: subtract
`numSelectableItems` while the highlight is past the last item. -/
def lowerHighlight (num h : Int) : Except MenuFault Int :=
  if num ≤ h then
    if 0 < num then lowerHighlight num (h - num) else .error .endlessLoop
  else .ok h
termination_by h.toNat
decreasing_by omega

/-- `EncoderAction_AdjustItemHelper(action)`: let the highlighted item use the scroll,
then move the highlight by what is left, wrapping around the selectable items. -/
def adjustItemHelper (m : Menu) (action : Int) : Except MenuFault Menu := do
  let some start := m.findHighlightedItem | .error .nullItem
  let (start, r) := start.advance action
  let m := m.setHighlightedItem start
  if r = 0 then .ok m
  else
    let h := m.highlightedItem + r
    if ¬(-2 ^ 31 ≤ h ∧ h < 2 ^ 31) then .error .intOverflow
    else
      let h ← raiseHighlight m.numSelectableItems h
      let h ← lowerHighlight m.numSelectableItems h
      let m := { m with highlightedItem := h }
      let some new := m.findHighlightedItem | .error .nullItem
      .ok (m.setHighlightedItem (new.enter (0 < r)))

/-- `EncoderAction(action)` at time `now`: a push for `action = 0`, a scroll by
`action` clicks otherwise. -/
def encoderAction (env : MenuEnv) (m : Menu) (action : Int) (now : UInt32) :
    Except MenuFault Menu :=
  (if m.numSelectableItems = 0 then .ok m
    else if m.itemIsSelected then .ok (m.exitItemHelper action)
    else if action ≠ 0 then m.adjustItemHelper action
    else m.enterItemHelper env) >>= fun m =>
  .ok { m with timeoutEnabled := true, lastActionTime := now }

/-- `Refresh()` at time `now`: back to `main` 20 s after the last encoder action;
otherwise the items are drawn (`drawnItems`), which changes nothing. -/
def refresh (env : MenuEnv) (m : Menu) (now : UInt32) : Except MenuFault Menu :=
  if m.timeoutEnabled ∧ now - m.lastActionTime > 20000 then do
    let m ← { m with numNestedMenus := 0 }.load env "main".toList
    .ok { m with timeoutEnabled := false }
  else .ok m

/-- The drawing loop of `Refresh` over the selectable items from index `i`: each item
with the `highlight` flag it is drawn with. -/
def drawFrom (h : Int) : Nat → List MenuItem → List (MenuItem × Bool)
  | _, [] => []
  | i, item :: items => (item, decide ((i : Int) = h)) :: drawFrom h (i + 1) items

/-- The selectable items as `Refresh` draws them. -/
def drawnItems (m : Menu) : List (MenuItem × Bool) :=
  drawFrom m.highlightedItem 0 m.selectableItems

/-! ## Runs -/

/-- The calls the rest of the firmware makes on the menu. -/
inductive MenuEvent
  | load (filename : CStr)
  | pop
  | reload
  | encoderAction (action : Int) (now : UInt32)
  | refresh (now : UInt32)

/-- One call on the menu. -/
def step (env : MenuEnv) (m : Menu) : MenuEvent → Except MenuFault Menu
  | .load f => m.load env f
  | .pop => m.pop env
  | .reload => m.reload env
  | .encoderAction a now => m.encoderAction env a now
  | .refresh now => m.refresh env now

end Menu

/-- The states of the menu after `Load("main")` and any calls after it, each without
undefined behaviour. The files, the printer and the commands' results may change
between calls. -/
inductive MenuReachable : Menu → Prop
  | start (env : MenuEnv) (now : UInt32) {m : Menu} :
      (Menu.init now).load env "main".toList = .ok m → MenuReachable m
  | step (env : MenuEnv) (e : Menu.MenuEvent) {m m' : Menu} :
      MenuReachable m → m.step env e = .ok m' → MenuReachable m'

end Display
