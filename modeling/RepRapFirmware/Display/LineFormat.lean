import RepRapFirmware.Display.MenuFile

/-!
# The menu line format

The header of `Menu.cpp` documents the lines of a menu file: a command word, then its
arguments, each a letter and a number (`Rnn`, `Cnn`, `Fnn`, `Dnn`, `Wnnn`, `Nvvv`) or a
letter and a string in double quotes (`T"text"`, `A"action"`, `L"filename"`,
`I"initial-directory"`). `LineArg` is one such argument, `LineArg.render` writes it in that
form, and `LineArg.set` is what the grammar says it sets: `N` the value, `T` the text, `A`
the action, `I` the initial directory and `L` the file name, a later argument overriding an
earlier one; the position, font, decimals and width only place what is drawn.

**What is proved** (`parseMenuLine_render`). For every command word of letters and every
list of arguments whose numbers fit an `unsigned long` and whose strings hold no double
quote, `ParseMenuLine` reads the line written in the documented form, the arguments
separated by blanks, into exactly what the grammar gives them, and builds the item
`addLineItem` builds from those. The argument loop neither skips nor misreads an argument:
`strtoul` stops at the blank after a number, and a string ends at its closing quote.
-/

set_option autoImplicit false

namespace Display

namespace Menu

/-- One argument of a menu line: a letter and a number, or a letter and a string. -/
inductive LineArg
  | number (letter : Char) (n : Nat)
  | string (letter : Char) (s : CStr)
  deriving DecidableEq, Repr

namespace LineArg

/-- The letters of the number arguments. -/
def numberLetters : CStr := ['R', 'C', 'F', 'D', 'W', 'N']

/-- The letters of the string arguments. -/
def stringLetters : CStr := ['T', 'L', 'A', 'I']

/-- An argument the grammar allows: a number letter, in either case, with a value an
`unsigned long` holds, or a string letter with a string that holds no double quote. -/
def wellFormed : LineArg → Bool
  | .number c n => c.toUpper ∈ numberLetters && decide (n < 2 ^ 32)
  | .string c s => c.toUpper ∈ stringLetters && quoteChar ∉ s

/-- The decimal digits of `n`, most significant first. -/
def decimalDigits (n : Nat) : CStr :=
  if n = 0 then ['0'] else (Nat.digits 10 n).reverse.map fun d => Char.ofNat ('0'.toNat + d)

/-- The argument as the grammar writes it. -/
def render : LineArg → CStr
  | .number c n => c :: decimalDigits n
  | .string c s => c :: quoteChar :: (s ++ [quoteChar])

/-- Arguments written one after another, each followed by a blank. -/
def renderAll : List LineArg → CStr
  | [] => []
  | x :: xs => x.render ++ ' ' :: renderAll xs

/-- What an argument sets in the arguments an item is built from, as the grammar in the
header of `Menu.cpp` describes it. -/
def set (a : LineArgs) : LineArg → LineArgs
  | .number c n => if c.toUpper = 'N' then { a with nparam := n } else a
  | .string c s =>
    if c.toUpper = 'T' then { a with text := s }
    else if c.toUpper = 'A' then { a with action := some s }
    else if c.toUpper = 'I' then { a with dirpath := s }
    else if c.toUpper = 'L' then { a with fname := s }
    else a

/-! ## Numbers -/

/-- The ten decimal digit characters. -/
def digitChars : CStr := ['0', '1', '2', '3', '4', '5', '6', '7', '8', '9']

theorem digitChar_mem {d : Nat} (h : d < 10) : Char.ofNat ('0'.toNat + d) ∈ digitChars := by
  interval_cases d <;> decide

/-- A digit is a digit to `strtoul` and is not white space. -/
theorem digitChars_facts : ∀ c ∈ digitChars, c.isDigit = true ∧ isSpace c = false := by
  decide

/-- A digit is no sign. -/
theorem signOf_digit {c : Char} (hc : c ∈ digitChars) (t : CStr) :
    signOf (c :: t) = (false, c :: t) := by
  simp only [digitChars, List.mem_cons, List.mem_singleton, List.not_mem_nil, or_false] at hc
  rcases hc with rfl | rfl | rfl | rfl | rfl | rfl | rfl | rfl | rfl | rfl <;> rfl

theorem toNat_digitChar {d : Nat} (h : d < 10) : (Char.ofNat ('0'.toNat + d)).toNat = '0'.toNat + d := by
  interval_cases d <;> rfl

theorem mem_digitChars_of_mem_decimalDigits {n : Nat} {c : Char} (h : c ∈ decimalDigits n) :
    c ∈ digitChars := by
  unfold decimalDigits at h
  split at h
  · simp only [List.mem_singleton] at h; subst h; decide
  · obtain ⟨d, hd, rfl⟩ := List.mem_map.1 h
    exact digitChar_mem (Nat.digits_lt_base (by decide) (List.mem_reverse.1 hd))

theorem decimalDigits_ne_nil (n : Nat) : decimalDigits n ≠ [] := by
  unfold decimalDigits
  split
  · exact List.cons_ne_nil _ _
  · simpa [List.map_eq_nil_iff] using Nat.digits_ne_nil_iff_ne_zero.2 ‹_›

/-- Reading digits most significant first is `Nat.ofDigits` of them least significant
first. -/
theorem decimalValue_reverse_map (L : List Nat) (hL : ∀ d ∈ L, d < 10) :
    decimalValue (L.reverse.map fun d => Char.ofNat ('0'.toNat + d)) = Nat.ofDigits 10 L := by
  unfold decimalValue
  rw [List.foldl_map, List.foldl_reverse]
  induction L with
  | nil => rfl
  | cons d L ih =>
    rw [List.foldr_cons, ih fun e he => hL e (List.mem_cons_of_mem _ he), Nat.ofDigits_cons,
      toNat_digitChar (hL d (List.mem_cons_self _ _))]
    omega

theorem decimalValue_decimalDigits (n : Nat) : decimalValue (decimalDigits n) = n := by
  unfold decimalDigits
  split
  · rename_i h; subst h; rfl
  · rw [decimalValue_reverse_map _ fun d hd => Nat.digits_lt_base (by decide) hd,
      Nat.ofDigits_digits]

/-- `strtoul` reads the digits of a number up to the blank after them. -/
theorem strtoul_decimalDigits {n : Nat} (hn : n < 2 ^ 32) (rest : CStr) :
    strtoul (decimalDigits n ++ ' ' :: rest) = (n, ' ' :: rest) := by
  have hdig : ∀ c ∈ decimalDigits n, c.isDigit = true := fun c hc =>
    (digitChars_facts c (mem_digitChars_of_mem_decimalDigits hc)).1
  obtain ⟨c, cs, hcs⟩ := List.exists_cons_of_ne_nil (decimalDigits_ne_nil n)
  have hmem := mem_digitChars_of_mem_decimalDigits (hcs ▸ List.mem_cons_self c cs)
  have hc := (digitChars_facts c hmem).2
  have hspace : (decimalDigits n ++ ' ' :: rest).dropWhile isSpace =
      decimalDigits n ++ ' ' :: rest := by
    rw [hcs, List.cons_append, List.dropWhile_cons_of_neg (by simp [hc])]
  have hsign : signOf (decimalDigits n ++ ' ' :: rest) = (false, decimalDigits n ++ ' ' :: rest) := by
    rw [hcs, List.cons_append, signOf_digit hmem]
  have htake : (decimalDigits n ++ ' ' :: rest).takeWhile Char.isDigit = decimalDigits n := by
    rw [List.takeWhile_append_of_pos hdig, List.takeWhile_cons_of_neg (by decide),
      List.append_nil]
  have hdrop : (decimalDigits n ++ ' ' :: rest).dropWhile Char.isDigit = ' ' :: rest := by
    rw [List.dropWhile_append_of_pos hdig, List.dropWhile_cons_of_neg (by decide)]
  unfold strtoul
  rw [hspace, hsign]
  dsimp only
  rw [htake, if_neg (decimalDigits_ne_nil n), decimalValue_decimalDigits, hdrop,
    if_neg (Nat.not_le.2 hn), if_neg Bool.false_ne_true]

/-! ## One argument, and a line -/

/-- A blank between arguments is skipped. -/
theorem parseArgs_blank (k : Nat) (a : LineArgs) (rest : CStr) :
    parseArgs (k + 1) a (' ' :: rest) = parseArgs k a rest := rfl

/-- **One argument.** The loop reads an argument written in the grammar's form and the
blank after it in two rounds, and sets what the grammar says it sets. -/
theorem parseArgs_render {x : LineArg} (hx : x.wellFormed = true) (k : Nat) (a : LineArgs)
    (rest : CStr) : parseArgs (k + 2) a (x.render ++ ' ' :: rest) = parseArgs k (set a x) rest := by
  cases x with
  | number c n =>
    simp only [wellFormed, Bool.and_eq_true, decide_eq_true_eq, numberLetters, List.mem_cons,
      List.mem_singleton, List.not_mem_nil, or_false] at hx
    obtain ⟨hl, hn⟩ := hx
    have hc : c ≠ ';' := by rintro rfl; revert hl; decide
    rw [show k + 2 = k + 1 + 1 from rfl, render, List.cons_append]
    rcases hl with h | h | h | h | h | h <;>
      simp only [parseArgs, if_neg hc, h, strtoul_decimalDigits hn, set, parseArgs_blank] <;> rfl
  | string c s =>
    simp only [wellFormed, Bool.and_eq_true, decide_eq_true_eq, stringLetters, List.mem_cons,
      List.mem_singleton, List.not_mem_nil, or_false] at hx
    obtain ⟨hl, hs⟩ := hx
    have hc : c ≠ ';' := by rintro rfl; revert hl; decide
    have hq : ∀ d ∈ s, (d != quoteChar) = true := fun d hd => by
      simpa using fun h : d = quoteChar => hs (h ▸ hd)
    have htake : (s ++ quoteChar :: ' ' :: rest).takeWhile (· != quoteChar) = s := by
      rw [List.takeWhile_append_of_pos hq, List.takeWhile_cons_of_neg (by simp),
        List.append_nil]
    have hdrop : ((s ++ quoteChar :: ' ' :: rest).dropWhile (· != quoteChar)).drop 1 =
        ' ' :: rest := by
      rw [List.dropWhile_append_of_pos hq, List.dropWhile_cons_of_neg (by simp)]
      rfl
    rw [show k + 2 = k + 1 + 1 from rfl, render, List.cons_append, List.cons_append,
      List.append_assoc, List.singleton_append]
    rcases hl with h | h | h | h <;>
      simp only [parseArgs, if_neg hc, h, if_pos, htake, hdrop, parseArgs_blank, set] <;> rfl

/-- **The arguments of a line.** With fuel for two rounds an argument, the loop reads the
arguments written in the grammar's form in order. -/
theorem parseArgs_renderAll : ∀ {args : List LineArg}, (∀ x ∈ args, x.wellFormed = true) →
    ∀ (k : Nat) (a : LineArgs),
      parseArgs (2 * args.length + k) a (renderAll args) = .ok (args.foldl set a)
  | [], _, k, a => by cases k <;> rfl
  | x :: xs, h, k, a => by
    rw [renderAll, List.length_cons, show 2 * (xs.length + 1) + k = (2 * xs.length + k) + 2 by omega,
      parseArgs_render (h x (List.mem_cons_self _ _)),
      parseArgs_renderAll (fun y hy => h y (List.mem_cons_of_mem _ hy)), List.foldl_cons]

end LineArg

/-- **The menu line format.** A line made of a command word of letters and arguments
written as the grammar of `Menu.cpp` writes them, each with a number an `unsigned long`
holds or a string without a double quote, is read into exactly what the grammar gives the
arguments, and `ParseMenuLine` builds the item of that command word from them. -/
theorem parseMenuLine_render (env : MenuEnv) (m : Menu) {word : CStr} (hword : word ≠ [])
    (halpha : ∀ c ∈ word, c.isAlpha = true) {args : List LineArg}
    (hargs : ∀ x ∈ args, x.wellFormed = true) :
    m.parseMenuLine env (word ++ ' ' :: LineArg.renderAll args) =
      m.addLineItem env word (args.foldl LineArg.set LineArgs.initial) := by
  obtain ⟨c, cs, rfl⟩ := List.exists_cons_of_ne_nil hword
  have hw : splitCommandWord ((c :: cs) ++ ' ' :: LineArg.renderAll args) =
      some (c :: cs, LineArg.renderAll args) := by
    unfold splitCommandWord
    rw [List.takeWhile_append_of_pos halpha, List.takeWhile_cons_of_neg (by decide),
      List.append_nil, if_neg (List.cons_ne_nil _ _), List.dropWhile_append_of_pos halpha,
      List.dropWhile_cons_of_neg (by decide)]
    rfl
  have hhead : ((c :: cs) ++ ' ' :: LineArg.renderAll args).head? ≠ some ';' := by
    have hc := halpha c (List.mem_cons_self _ _)
    rintro h
    cases Option.some.inj h
    cases hc
  have hp := LineArg.parseArgs_renderAll hargs (LineArg.renderAll args).length LineArgs.initial
  rw [parseArgs_fuel (Nat.le_add_left _ _)] at hp
  exact parseMenuLine_of_args env m hw hhead hp

/-- A `button` line with a text, an action and a file name, read as the grammar says. -/
theorem button_line_read :
    ("button".toList ≠ [] ∧ (∀ c ∈ "button".toList, c.isAlpha = true) ∧
      ∀ x ∈ [LineArg.string 'T' "Print".toList, .string 'A' "M32 #0".toList,
        .string 'L' "sd".toList, .number 'R' 12], x.wellFormed = true) ∧
    (Menu.init 0).parseMenuLine (mainMenuEnv []) ("button".toList ++ ' ' :: LineArg.renderAll
        [.string 'T' "Print".toList, .string 'A' "M32 #0".toList, .string 'L' "sd".toList,
          .number 'R' 12]) =
      (Menu.init 0).addLineItem (mainMenuEnv []) "button".toList
        ([LineArg.string 'T' "Print".toList, .string 'A' "M32 #0".toList,
          .string 'L' "sd".toList, .number 'R' 12].foldl LineArg.set LineArgs.initial) :=
  have h₁ : "button".toList ≠ [] := List.cons_ne_nil _ _
  have h₂ : ∀ c ∈ "button".toList, c.isAlpha = true := by decide
  have h₃ : ∀ x ∈ [LineArg.string 'T' "Print".toList, .string 'A' "M32 #0".toList,
      .string 'L' "sd".toList, .number 'R' 12], x.wellFormed = true := by decide
  ⟨⟨h₁, h₂, h₃⟩, parseMenuLine_render _ _ h₁ h₂ h₃⟩

end Menu

end Display
