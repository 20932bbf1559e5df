import Mathlib.Data.List.TakeWhile
import Pooling.Metrics.Exposition

/-!
The words of the text format in which metrics are exposed, and a reader of them: names, numbers, and
labels, whose values stand in double quotes. What is written as one of them is read as it was meant,
and the value of a label if and only if whatever has to be is escaped.
-/

namespace Pooling.Exposition

/-- The value of a sample. A decimal is `digits` times the power of ten to the `exponent`. -/
inductive Number where
  | nan
  | infinite (negative : Bool)
  | decimal (negative : Bool) (digits : Nat) (exponent : Int)
  deriving DecidableEq

/-- A reader takes a value off the front of a text. -/
abbrev Reader (α : Type) := List Char → Option (α × List Char)

/-! Tokens. -/

def isBlank (char : Char) : Bool := char = ' ' || char = '\t'

def isInk (char : Char) : Bool := !isBlank char && char ≠ '\n'

def skipBlanks (text : List Char) : List Char := text.dropWhile isBlank

/-- The characters up to the next blank or the end of the line. -/
def token (text : List Char) : List Char × List Char :=
  ((skipBlanks text).takeWhile isInk, (skipBlanks text).dropWhile isInk)

/-- What follows a certain character, with blanks before it. -/
def after? (sign : Char) (text : List Char) : Option (List Char) :=
  match skipBlanks text with
  | [] => none
  | first :: rest => if first = sign then some rest else none

theorem skipBlanks_cons {first : Char} (hfirst : isBlank first = false) (rest : List Char) :
    skipBlanks (first :: rest) = first :: rest :=
  List.dropWhile_cons_of_neg (ne_true_of_eq_false hfirst)

@[simp] theorem skipBlanks_space (rest : List Char) : skipBlanks (' ' :: rest) = skipBlanks rest :=
  rfl

@[simp] theorem token_space (rest : List Char) : token (' ' :: rest) = token rest := rfl

theorem isBlank_of_isInk {char : Char} (hink : isInk char = true) : isBlank char = false := by
  simp only [isInk, Bool.and_eq_true, Bool.not_eq_true'] at hink
  exact hink.1

theorem token_append {word : List Char} (hword : word.all isInk = true)
    (hsome : word ≠ []) {sign : Char} (hsign : isInk sign = false) (rest : List Char) :
    token (word ++ sign :: rest) = (word, sign :: rest) := by
  have hword := List.all_eq_true.mp hword
  have hskip : skipBlanks (word ++ sign :: rest) = word ++ sign :: rest := by
    obtain ⟨first, others, rfl⟩ := List.exists_cons_of_ne_nil hsome
    exact skipBlanks_cons (isBlank_of_isInk (hword first List.mem_cons_self)) _
  rw [token, hskip, List.takeWhile_append_of_pos hword, List.dropWhile_append_of_pos hword,
    List.takeWhile_cons_of_neg (ne_true_of_eq_false hsign),
    List.dropWhile_cons_of_neg (ne_true_of_eq_false hsign), List.append_nil]

theorem after?_cons {first : Char} (hfirst : isBlank first = false) (sign : Char)
    (rest : List Char) :
    after? sign (first :: rest) = if first = sign then some rest else none := by
  rw [after?, skipBlanks_cons hfirst]

/-! Names. -/

def isLabelStart (char : Char) : Bool := char.isAlpha || char = '_'

def isLabelPart (char : Char) : Bool := isLabelStart char || char.isDigit

def isMetricStart (char : Char) : Bool := isLabelStart char || char = ':'

def isMetricPart (char : Char) : Bool := isMetricStart char || char.isDigit

def isName (start part : Char → Bool) : List Char → Bool
  | [] => false
  | first :: rest => start first && rest.all part

def isLabelName (name : String) : Bool := isName isLabelStart isLabelPart name.toList

def isMetricName (name : String) : Bool := isName isMetricStart isMetricPart name.toList

def name? (start part : Char → Bool) : Reader String
  | [] => none
  | first :: rest =>
      if start first then
        some (String.ofList (first :: rest.takeWhile part), rest.dropWhile part)
      else none

theorem exists_of_isName {start part : Char → Bool} {name : List Char}
    (hname : isName start part name = true) :
    ∃ first rest, name = first :: rest ∧ start first = true ∧ ∀ char ∈ rest, part char = true := by
  cases name with
  | nil => cases hname
  | cons first rest => exact ⟨first, rest, rfl, by simpa [isName] using hname⟩

theorem name?_append {start part : Char → Bool} {name : String}
    (hname : isName start part name.toList = true) {sign : Char} (hsign : part sign = false)
    (rest : List Char) :
    name? start part (name.toList ++ sign :: rest) = some (name, sign :: rest) := by
  obtain ⟨first, others, hchars, hstart, hpart⟩ := exists_of_isName hname
  rw [hchars, List.cons_append, name?, if_pos hstart, List.takeWhile_append_of_pos hpart,
    List.dropWhile_append_of_pos hpart, List.takeWhile_cons_of_neg (ne_true_of_eq_false hsign),
    List.dropWhile_cons_of_neg (ne_true_of_eq_false hsign), List.append_nil, ← hchars,
    String.ofList_toList]

/-! Numbers. -/

def natural? (digits : List Char) : Option Nat :=
  if digits ≠ [] ∧ digits.all Char.isDigit then some (Nat.ofDigitChars 10 digits 0) else none

def integer? : List Char → Option Int
  | '-' :: digits => (natural? digits).map fun value => -value
  | '+' :: digits => (natural? digits).map fun value => value
  | digits => (natural? digits).map fun value => value

def fraction : List Char → List Char × List Char
  | '.' :: rest => (rest.takeWhile Char.isDigit, rest.dropWhile Char.isDigit)
  | rest => ([], rest)

def exponent? : List Char → Option Int
  | [] => some 0
  | 'e' :: rest => integer? rest
  | 'E' :: rest => integer? rest
  | _ => none

def decimal? (negative : Bool) (word : List Char) : Option Number :=
  let whole := word.takeWhile Char.isDigit
  let (places, rest) := fraction (word.dropWhile Char.isDigit)
  let digits := whole ++ places
  if digits.isEmpty then none
  else (exponent? rest).map fun exponent =>
    .decimal negative (Nat.ofDigitChars 10 digits 0) (exponent - places.length)

def unsigned? (negative : Bool) (word : List Char) : Option Number :=
  let lower := String.ofList (word.map Char.toLower)
  if lower = "nan" then some .nan
  else if lower = "inf" ∨ lower = "infinity" then some (.infinite negative)
  else decimal? negative word

def number? : List Char → Option Number
  | '-' :: word => unsigned? true word
  | '+' :: word => unsigned? false word
  | word => unsigned? false word

theorem toLower_of_isDigit {char : Char} (hdigit : char.isDigit = true) : char.toLower = char := by
  obtain ⟨-, hle⟩ := Bool.and_eq_true_iff.mp hdigit
  refine dif_neg fun hupper => ?_
  exact absurd (UInt32.le_trans hupper.1 (of_decide_eq_true hle)) (by decide)

theorem unsigned?_of_digit (negative : Bool) {first : Char} (hfirst : first.isDigit = true)
    (rest : List Char) :
    unsigned? negative (first :: rest) = decimal? negative (first :: rest) := by
  have hlower : ∀ word : String, word.toList.head?.any Char.isDigit = false →
      String.ofList ((first :: rest).map Char.toLower) ≠ word := by
    rintro _ hword rfl
    rw [String.toList_ofList, List.map_cons, toLower_of_isDigit hfirst] at hword
    simp [hfirst] at hword
  rw [unsigned?, if_neg (hlower "nan" rfl),
    if_neg (not_or.mpr ⟨hlower "inf" rfl, hlower "infinity" rfl⟩)]

theorem number?_digits (negative : Bool) {first : Char} (hfirst : first.isDigit = true)
    (rest : List Char) :
    number? ((if negative then ['-'] else []) ++ first :: rest) =
      decimal? negative (first :: rest) := by
  rw [← unsigned?_of_digit negative hfirst]
  cases negative with
  | true => rfl
  | false =>
      show number? (first :: rest) = _
      unfold number?
      split
      next heq =>
        cases heq
        cases hfirst
      next heq =>
        cases heq
        cases hfirst
      next => rfl

theorem decimal?_digits (negative : Bool) {digits : List Char} (hsome : digits ≠ [])
    (hdigits : ∀ char ∈ digits, char.isDigit = true) :
    decimal? negative digits = some (.decimal negative (Nat.ofDigitChars 10 digits 0) 0) := by
  simp [decimal?, fraction, exponent?, List.takeWhile_eq_self_iff.mpr hdigits,
    List.dropWhile_eq_nil_iff.mpr hdigits, hsome]

theorem decimal?_places (negative : Bool) {whole places : List Char} (hsome : whole ≠ [])
    (hwhole : ∀ char ∈ whole, char.isDigit = true)
    (hplaces : ∀ char ∈ places, char.isDigit = true) :
    decimal? negative (whole ++ '.' :: places) =
      some (.decimal negative (Nat.ofDigitChars 10 (whole ++ places) 0) (-places.length)) := by
  simp [decimal?, fraction, exponent?, List.takeWhile_append_of_pos hwhole,
    List.dropWhile_append_of_pos hwhole, List.takeWhile_eq_self_iff.mpr hplaces,
    List.dropWhile_eq_nil_iff.mpr hplaces, hsome]

/-! Values in quotes. -/

/-- What a character stands for that follows a backslash. -/
def unescaped? (char : Char) : Option Char :=
  if char = '\\' then some '\\'
  else if char = '"' then some '"'
  else if char = 'n' then some '\n'
  else none

/-- The rest of a value in quotes, where a backslash, a quote and a line feed have to be escaped. -/
def quoted? : Reader (List Char)
  | [] => none
  | char :: text =>
      if char = '"' then some ([], text)
      else if char = '\\' then
        match text with
        | [] => none
        | next :: text =>
            (unescaped? next).bind fun char =>
              (quoted? text).map fun found => (char :: found.1, found.2)
      else if char = '\n' then none
      else (quoted? text).map fun found => (char :: found.1, found.2)

/-- A character that is not escaped in quotes. -/
def isPlainChar (char : Char) : Bool := char ≠ '"' && char ≠ '\\' && char ≠ '\n'

def isPlain (text : List Char) : Bool := text.all isPlainChar

theorem quoted?_quote (rest : List Char) : quoted? ('"' :: rest) = some ([], rest) := by
  rw [quoted?.eq_def]
  exact if_pos rfl

theorem quoted?_cons {char : Char} (hplain : isPlainChar char = true) (rest : List Char) :
    quoted? (char :: rest) = (quoted? rest).map fun found => (char :: found.1, found.2) := by
  simp only [isPlainChar, Bool.and_eq_true, decide_eq_true_eq] at hplain
  obtain ⟨⟨hquote, hslash⟩, hfeed⟩ := hplain
  rw [quoted?.eq_def]
  simp only [if_neg hquote, if_neg hslash, if_neg hfeed]

/-- A character as it has to be written in quotes. -/
def escapedChar (char : Char) : List Char :=
  if char = '\\' then ['\\', '\\']
  else if char = '"' then ['\\', '"']
  else if char = '\n' then ['\\', 'n']
  else [char]

def escaped (text : List Char) : List Char := text.flatMap escapedChar

theorem escaped_of_isPlain {text : List Char} (hplain : isPlain text = true) :
    escaped text = text := by
  induction text with
  | nil => rfl
  | cons char text ih =>
      obtain ⟨hchar, htext⟩ := Bool.and_eq_true_iff.mp hplain
      simp only [isPlainChar, Bool.and_eq_true, decide_eq_true_eq] at hchar
      obtain ⟨⟨hquote, hslash⟩, hfeed⟩ := hchar
      have hone : escapedChar char = [char] := by
        rw [escapedChar, if_neg hslash, if_neg hquote, if_neg hfeed]
      rw [escaped, List.flatMap_cons, hone, ← escaped, ih htext]
      rfl

theorem quoted?_escapedChar (char : Char) (rest : List Char) :
    quoted? (escapedChar char ++ rest) =
      (quoted? rest).map fun found => (char :: found.1, found.2) := by
  unfold escapedChar
  split
  next hslash => rw [hslash, quoted?.eq_def]; rfl
  next hslash =>
    split
    next hquote => rw [hquote, quoted?.eq_def]; rfl
    next hquote =>
      split
      next hfeed => rw [hfeed, quoted?.eq_def]; rfl
      next hfeed => exact quoted?_cons (by simp [isPlainChar, hquote, hslash, hfeed]) rest

/-- Every value can be written such that it is read back. -/
theorem quoted?_escaped (value rest : List Char) :
    quoted? (escaped value ++ '"' :: rest) = some (value, rest) := by
  induction value with
  | nil => exact quoted?_quote rest
  | cons char value ih =>
      rw [escaped, List.flatMap_cons, List.append_assoc, quoted?_escapedChar, ← escaped, ih,
        Option.map_some]

theorem quoted?_append {value : List Char} (hplain : isPlain value = true) (rest : List Char) :
    quoted? (value ++ '"' :: rest) = some (value, rest) := by
  have hread := quoted?_escaped value rest
  rwa [escaped_of_isPlain hplain] at hread

/-- How the reading of a value in quotes goes on from a character. -/
theorem quoted?_cons_eq_some {char : Char} {text value rest : List Char}
    (hread : quoted? (char :: text) = some (value, rest)) :
    (char = '"' ∧ value = [] ∧ rest = text) ∨
      (char = '\\' ∧ ∃ next after read others, text = next :: after ∧
        unescaped? next = some read ∧ quoted? after = some (others, rest) ∧
        value = read :: others) ∨
      isPlainChar char = true ∧ ∃ others, quoted? text = some (others, rest) ∧
        value = char :: others := by
  rw [quoted?.eq_def] at hread
  dsimp only at hread
  split at hread
  next hquote =>
    cases hread
    exact .inl ⟨hquote, rfl, rfl⟩
  next hquote =>
    split at hread
    next hslash =>
      cases text with
      | nil => cases hread
      | cons next after =>
          obtain ⟨read, hunescaped, hmore⟩ := Option.bind_eq_some_iff.mp hread
          obtain ⟨⟨others, left⟩, hafter, heq⟩ := Option.map_eq_some_iff.mp hmore
          cases heq
          exact .inr (.inl ⟨hslash, next, after, read, others, rfl, hunescaped, hafter, rfl⟩)
    next hslash =>
      split at hread
      next => cases hread
      next hfeed =>
        obtain ⟨⟨others, left⟩, hafter, heq⟩ := Option.map_eq_some_iff.mp hread
        cases heq
        exact .inr (.inr ⟨by simp [isPlainChar, hquote, hslash, hfeed], others, hafter, rfl⟩)

theorem unescaped?_eq_slash {next : Char} (hnext : unescaped? next = some '\\') : next = '\\' := by
  unfold unescaped? at hnext
  split at hnext
  next hslash => exact hslash
  next =>
    split at hnext
    next => simp at hnext
    next => split at hnext <;> simp at hnext

/-- A value that is read past its own quote does not begin with the backslash that hides it. -/
theorem quoted?_ne_replicate {text value rest : List Char}
    (hread : quoted? text = some (value, rest)) (count : Nat) (tail : List Char) :
    value ++ '"' :: tail ≠ List.replicate (count + 1) '\\' ++ text := by
  induction hlength : text.length using Nat.strongRecOn generalizing text value count with
  | ind length ih =>
      intro heq
      rw [List.replicate_succ, List.cons_append] at heq
      cases text with
      | nil => cases hread
      | cons char text =>
          rcases quoted?_cons_eq_some hread with ⟨-, rfl, -⟩ |
            ⟨rfl, next, after, read, others, rfl, hunescaped, hafter, rfl⟩ |
            ⟨hplain, others, hafter, rfl⟩
          · cases heq
          · rw [List.cons_append, List.cons.injEq] at heq
            obtain ⟨rfl, heq⟩ := heq
            obtain rfl := unescaped?_eq_slash hunescaped
            -- Two backslashes that are read as one leave one more in front of what is left.
            refine ih after.length (by simp at hlength; omega) hafter (count + 1) rfl ?_
            rw [heq, List.replicate_succ', List.replicate_succ', List.append_assoc,
              List.append_assoc]
            rfl
          · rw [List.cons_append, List.cons.injEq] at heq
            obtain ⟨rfl, -⟩ := heq
            cases hplain

/-- A value that is read as it stands has nothing in it that needs to be escaped. -/
theorem isPlain_of_quoted? {value rest left : List Char}
    (hread : quoted? (value ++ '"' :: rest) = some (value, left)) :
    isPlain value = true ∧ left = rest := by
  induction value with
  | nil =>
      cases (quoted?_quote rest).symm.trans hread
      exact ⟨rfl, rfl⟩
  | cons char value ih =>
      rcases quoted?_cons_eq_some hread with ⟨-, heq, -⟩ |
        ⟨rfl, next, after, read, others, htext, hunescaped, hafter, heq⟩ |
        ⟨hplain, others, hmore, heq⟩
      · cases heq
      · cases heq
        obtain rfl := unescaped?_eq_slash hunescaped
        exact absurd htext (quoted?_ne_replicate hafter 0 rest)
      · cases heq
        obtain ⟨hvalue, hleft⟩ := ih hmore
        exact ⟨Bool.and_eq_true_iff.mpr ⟨hplain, hvalue⟩, hleft⟩

/-! Labels. -/

def label? : Reader (String × String) := fun text => do
  let (name, rest) ← name? isLabelStart isLabelPart (skipBlanks text)
  let rest ← after? '=' rest
  let rest ← after? '"' rest
  let (value, rest) ← quoted? rest
  some ((name, String.ofList value), rest)

/-- The labels up to the closing brace, before which a comma may stand. -/
def labels? (text : List Char) : Option (Labels × List Char) :=
  match after? '\x7d' text with
  | some rest => some ([], rest)
  | none =>
      match label? text with
      | none => none
      | some (pair, rest) =>
          match after? ',' rest with
          | none => (after? '\x7d' rest).map fun rest => ([pair], rest)
          | some rest =>
              if rest.length < text.length then
                (labels? rest).map fun found => (pair :: found.1, found.2)
              else none
termination_by text.length

theorem isBlank_of_isLabelStart {char : Char} (hstart : isLabelStart char = true) :
    isBlank char = false := by
  apply eq_false_of_ne_true
  intro hblank
  simp only [isBlank, Bool.or_eq_true, decide_eq_true_eq] at hblank
  rcases hblank with rfl | rfl <;> cases hstart

theorem toList_label (pair : String × String) (rest : List Char) :
    (label pair).toList ++ rest =
      pair.1.toList ++ '=' :: '"' :: (pair.2.toList ++ '"' :: rest) := by
  simp [label]

section

variable {pair : String × String} (hname : isLabelName pair.1 = true)
include hname

theorem label?_append (rest : List Char) :
    label? ((label pair).toList ++ rest) =
      (quoted? (pair.2.toList ++ '"' :: rest)).map fun found =>
        ((pair.1, String.ofList found.1), found.2) := by
  have hskip : skipBlanks ((label pair).toList ++ rest) = (label pair).toList ++ rest := by
    obtain ⟨first, others, hchars, hstart, -⟩ := exists_of_isName hname
    rw [toList_label, hchars]
    exact skipBlanks_cons (isBlank_of_isLabelStart hstart) _
  rw [label?, hskip, toList_label, name?_append hname rfl]
  simp only [Option.bind_eq_bind, Option.bind_some]
  rw [after?_cons rfl, if_pos rfl, Option.bind_some, after?_cons rfl, if_pos rfl, Option.bind_some,
    Option.map_eq_bind]
  rfl

theorem after?_label {sign : Char} (hsign : isLabelStart sign = false) (rest : List Char) :
    after? sign ((label pair).toList ++ rest) = none := by
  obtain ⟨first, others, hchars, hstart, -⟩ := exists_of_isName hname
  rw [toList_label, hchars, List.cons_append, after?_cons (isBlank_of_isLabelStart hstart)]
  refine if_neg ?_
  rintro rfl
  simp [hstart] at hsign

end

/-- How the reading of labels goes on from one. -/
theorem labels?_eq_some {text left : List Char} {pair : String × String} {others : Labels}
    (hread : labels? text = some (pair :: others, left)) :
    ∃ rest, label? text = some (pair, rest) ∧
      (after? ',' rest = none ∨ ∃ after, after? ',' rest = some after ∧
        labels? after = some (others, left)) := by
  rw [labels?] at hread
  split at hread
  next => cases hread
  next =>
    split at hread
    next => cases hread
    next found rest hfound =>
      refine ⟨rest, ?_⟩
      split at hread
      next hcomma =>
        obtain ⟨after, -, heq⟩ := Option.map_eq_some_iff.mp hread
        cases heq
        exact ⟨hfound, .inl hcomma⟩
      next after hcomma =>
        obtain ⟨-, hrest⟩ := Option.ite_none_right_eq_some.mp hread
        obtain ⟨⟨following, ending⟩, hmore, heq⟩ := Option.map_eq_some_iff.mp hrest
        cases heq
        exact ⟨hfound, .inr ⟨after, hcomma, hmore⟩⟩

theorem toList_labelText_cons (pair next : String × String) (others : Labels) (rest : List Char) :
    (labelText (pair :: next :: others)).toList ++ rest =
      (label pair).toList ++ ',' :: ((labelText (next :: others)).toList ++ rest) := by
  simp [labelText]

/-- A label as it has to be written. -/
def escapedLabel (pair : String × String) : String × String :=
  (pair.1, String.ofList (escaped pair.2.toList))

theorem map_escapedLabel {labels : Labels}
    (hplain : ∀ pair ∈ labels, isPlain pair.2.toList = true) :
    labels.map escapedLabel = labels := by
  rw [List.map_congr_left fun pair hmem => ?_, List.map_id]
  rw [escapedLabel, escaped_of_isPlain (hplain pair hmem), String.ofList_toList]
  rfl

theorem label?_escaped {pair : String × String} (hname : isLabelName pair.1 = true)
    (rest : List Char) :
    label? ((label (escapedLabel pair)).toList ++ rest) = some (pair, rest) := by
  have hescaped : isLabelName (escapedLabel pair).1 = true := hname
  have hread := label?_append hescaped rest
  rw [escapedLabel, String.toList_ofList, quoted?_escaped, Option.map_some,
    String.ofList_toList] at hread
  exact hread

theorem labels?_escaped {labels : Labels} (hnames : ∀ pair ∈ labels, isLabelName pair.1 = true)
    (rest : List Char) :
    labels? ((labelText (labels.map escapedLabel)).toList ++ '\x7d' :: rest) =
      some (labels, rest) := by
  have hbrace : ∀ rest, after? '\x7d' ('\x7d' :: rest) = some rest := fun rest => by
    rw [after?_cons rfl, if_pos rfl]
  induction labels with
  | nil =>
      rw [labels?]
      simp only [labelText, List.map_nil, String.intercalate_nil, String.toList_empty,
        List.nil_append, hbrace]
  | cons pair labels ih =>
      have hname := hnames pair List.mem_cons_self
      have hescaped : isLabelName (escapedLabel pair).1 = true := hname
      have hnone : ∀ rest, after? '\x7d' ((label (escapedLabel pair)).toList ++ rest) = none :=
        after?_label hescaped rfl
      cases labels with
      | nil =>
          have hcomma : after? ',' ('\x7d' :: rest) = none := by
            rw [after?_cons rfl, if_neg (by decide)]
          rw [List.map_singleton, labelText, List.map_singleton, String.intercalate_singleton,
            labels?, hnone]
          simp only [label?_escaped hname, hcomma, hbrace, Option.map_some]
      | cons next others =>
          have ih := ih fun other hmem => hnames other (List.mem_cons_of_mem _ hmem)
          have hcomma : ∀ rest, after? ',' (',' :: rest) = some rest := fun rest => by
            rw [after?_cons rfl, if_pos rfl]
          rw [List.map_cons] at ih
          rw [List.map_cons, List.map_cons, toList_labelText_cons, labels?, hnone]
          simp only [label?_escaped hname, hcomma, ih, Option.map_some]
          refine if_pos ?_
          simp only [List.length_append, List.length_cons]
          omega

theorem isPlain_of_labels? {labels : Labels} (hnames : ∀ pair ∈ labels, isLabelName pair.1 = true)
    {rest left : List Char}
    (hread : labels? ((labelText labels).toList ++ rest) = some (labels, left)) :
    ∀ pair ∈ labels, isPlain pair.2.toList = true := by
  induction labels with
  | nil => exact fun _ hmem => by cases hmem
  | cons pair labels ih =>
      have hname := hnames pair List.mem_cons_self
      have hfirst : ∀ {rest after}, label? ((label pair).toList ++ rest) = some (pair, after) →
          isPlain pair.2.toList = true ∧ after = rest := by
        intro rest after hlabel
        rw [label?_append hname] at hlabel
        obtain ⟨⟨value, ending⟩, hvalue, heq⟩ := Option.map_eq_some_iff.mp hlabel
        simp only [Prod.mk.injEq] at heq
        obtain ⟨heq, rfl⟩ := heq
        have hsame : pair.2.toList = value := by rw [← heq, String.toList_ofList]
        rw [← hsame] at hvalue
        exact isPlain_of_quoted? hvalue
      cases labels with
      | nil =>
          obtain ⟨after, hlabel, -⟩ := labels?_eq_some hread
          rw [labelText, List.map_singleton, String.intercalate_singleton] at hlabel
          simpa using (hfirst hlabel).1
      | cons next others =>
          obtain ⟨after, hlabel, hmore⟩ := labels?_eq_some hread
          rw [toList_labelText_cons] at hlabel
          obtain ⟨hplain, rfl⟩ := hfirst hlabel
          rw [after?_cons rfl, if_pos rfl] at hmore
          rcases hmore with hnone | ⟨after, heq, hmore⟩
          · cases hnone
          · cases heq
            have ih := ih (fun other hmem => hnames other (List.mem_cons_of_mem _ hmem)) hmore
            intro other hmem
            rcases List.mem_cons.mp hmem with rfl | hmem
            · exact hplain
            · exact ih other hmem

/-- A value that is written as it stands ends with its first quote, and then the labels go on or
end. -/
theorem labels?_eq_none {pair : String × String} (hname : isLabelName pair.1 = true)
    {value rest : List Char} {sign : Char} (hvalue : pair.2.toList = value ++ '"' :: sign :: rest)
    (hplain : isPlain value = true) (hsign : isBlank sign = false) (hcomma : sign ≠ ',')
    (hbrace : sign ≠ '\x7d') (labels : Labels) (more : List Char) :
    labels? ((labelText (pair :: labels)).toList ++ more) = none := by
  obtain ⟨tail, htail⟩ : ∃ tail, (labelText (pair :: labels)).toList ++ more =
      (label pair).toList ++ tail := by
    cases labels with
    | nil => exact ⟨more, by rw [labelText, List.map_singleton, String.intercalate_singleton]⟩
    | cons next others => exact ⟨_, toList_labelText_cons pair next others more⟩
  have hlabel : label? ((label pair).toList ++ tail) =
      some ((pair.1, String.ofList value), sign :: (rest ++ '"' :: tail)) := by
    rw [label?_append hname, hvalue, List.append_assoc, List.cons_append, List.cons_append,
      quoted?_append hplain, Option.map_some]
  have hnone : ∀ other, sign ≠ other → after? other (sign :: (rest ++ '"' :: tail)) = none :=
    fun other hne => by rw [after?_cons hsign, if_neg hne]
  rw [htail, labels?, after?_label hname rfl]
  simp only [hlabel, hnone _ hcomma, hnone _ hbrace, Option.map_none]

end Pooling.Exposition
