import Mathlib.Data.List.Forall2
import Pooling.Proofs.Metrics.Grammar

/-!
The lines of the text format in which metrics are exposed, a reader of a whole text of them, and
what it reads where metrics are written one after the other.
-/

namespace Pooling.Exposition

/-- What a line says. -/
inductive Line where
  | help (metric text : String)
  | type (metric kind : String)
  | sample (metric : String) (labels : Labels) (value : Number) (time : Option Int)
  deriving DecidableEq

/-! Lines. -/

def value? : Reader Number := fun text =>
  (number? (token text).1).map fun value => (value, (token text).2)

def time? : Reader (Option Int) := fun text =>
  if (token text).1 = [] then some (none, text)
  else (integer? (token text).1).map fun time => (some time, (token text).2)

def sampleLabels? : Reader Labels := fun text =>
  match after? '\x7b' text with
  | some rest => labels? rest
  | none => some ([], text)

/-- The rest of a sample, which has no two labels of one name. -/
def sampled? (metric : String) (labels : Labels) : Reader Line := fun text => do
  let (value, rest) ← value? text
  let (time, rest) ← time? rest
  let rest ← after? '\n' rest
  if (labels.map Prod.fst).Nodup then some (.sample metric labels value time, rest) else none

def sample? : Reader Line := fun text => do
  let (metric, rest) ← name? isMetricStart isMetricPart (skipBlanks text)
  let (labels, rest) ← sampleLabels? rest
  sampled? metric labels rest

theorem exists_of_sampled? {metric : String} {labels : Labels} {text rest : List Char} {line : Line}
    (hread : sampled? metric labels text = some (line, rest)) :
    ∃ value time, line = .sample metric labels value time := by
  obtain ⟨⟨value, after⟩, -, hread⟩ := Option.bind_eq_some_iff.mp hread
  obtain ⟨⟨time, after⟩, -, hread⟩ := Option.bind_eq_some_iff.mp hread
  obtain ⟨after, -, hread⟩ := Option.bind_eq_some_iff.mp hread
  obtain ⟨-, hread⟩ := Option.ite_none_right_eq_some.mp hread
  cases hread
  exact ⟨value, time, rfl⟩

/-- A word of a certain sort. -/
def word? (isOne : String → Bool) : Reader String := fun text =>
  let word := String.ofList (token text).1
  if isOne word then some (word, (token text).2) else none

/-- A text of help, where a backslash and a line feed have to be escaped. -/
def plainText? : List Char → Option (List Char)
  | [] => some []
  | char :: text =>
      if char = '\\' then
        match text with
        | [] => none
        | next :: text =>
            if next = '"' then none
            else (unescaped? next).bind fun char => (plainText? text).map (char :: ·)
      else (plainText? text).map (char :: ·)

def isInLine (char : Char) : Bool := char ≠ '\n'

def help? : Reader Line := fun text => do
  let (metric, rest) ← word? isMetricName text
  let words ← plainText? ((skipBlanks rest).takeWhile isInLine)
  let rest ← after? '\n' ((skipBlanks rest).dropWhile isInLine)
  some (.help metric (String.ofList words), rest)

def kinds : List String := ["counter", "gauge", "histogram", "summary", "untyped"]

def type? : Reader Line := fun text => do
  let (metric, rest) ← word? isMetricName text
  let (kind, rest) ← word? kinds.contains rest
  let rest ← after? '\n' rest
  some (.type metric kind, rest)

/-- A comment says something if its first word is one of two. -/
def comment? : Reader (Option Line) := fun text =>
  let keyword := String.ofList (token text).1
  if keyword = "HELP" then (help? (token text).2).map fun found => (some found.1, found.2)
  else if keyword = "TYPE" then (type? (token text).2).map fun found => (some found.1, found.2)
  else (after? '\n' (text.dropWhile isInLine)).map fun rest => (none, rest)

def line? : Reader (Option Line) := fun text =>
  match skipBlanks text with
  | [] => none
  | first :: rest =>
      if first = '\n' then some (none, rest)
      else if first = '#' then comment? rest
      else (sample? (first :: rest)).map fun found => (some found.1, found.2)

def lines? (text : List Char) : Option (List Line) :=
  if text = [] then some []
  else
    match line? text with
    | none => none
    | some (line, rest) =>
        if rest.length < text.length then (lines? rest).map (line.toList ++ ·) else none
termination_by text.length

/-! The whole text. -/

/-- An earlier line keeps a later one from being told: no help, type or sample is told twice, and
the type of a metric comes before its samples. -/
def Line.clashes : Line → Line → Bool
  | help metric _, help other _ => metric = other
  | type metric _, type other _ => metric = other
  | sample metric _ _ _, type other _ => metric = other
  | sample metric labels _ _, sample other others _ _ => metric = other && labels.isPerm others
  | _, _ => false

def isOrderly (lines : List Line) : Bool :=
  lines.Pairwise fun earlier later => earlier.clashes later = false

/-- What a text says, if it is in the format. -/
def read? (text : String) : Option (List Line) := (lines? text.toList).filter isOrderly

/-! Reading one metric. -/

theorem line?_comment (text : List Char) : line? ('#' :: text) = comment? text := by
  rw [line?, skipBlanks_cons rfl]
  rfl

theorem isInk_of_isMetricPart {char : Char} (hpart : isMetricPart char = true) :
    isInk char = true := by
  by_contra hink
  have hsort : char = ' ' ∨ char = '\t' ∨ char = '\n' := by
    by_contra hnot
    simp only [not_or] at hnot
    simp [isInk, isBlank, hnot] at hink
  rcases hsort with rfl | rfl | rfl <;> cases hpart

theorem isInk_of_isMetricName {name : String} (hname : isMetricName name = true) :
    name.toList.all isInk = true ∧ name.toList ≠ [] := by
  obtain ⟨first, rest, hchars, hstart, hpart⟩ := exists_of_isName hname
  rw [hchars]
  refine ⟨List.all_eq_true.mpr fun char hmem => isInk_of_isMetricPart ?_, List.cons_ne_nil _ _⟩
  rcases List.mem_cons.mp hmem with rfl | hmem
  · exact Bool.or_eq_true_iff.mpr (.inl hstart)
  · exact hpart char hmem

theorem word?_append {isOne : String → Bool} {word : String} (hone : isOne word = true)
    (hink : word.toList.all isInk = true) (hsome : word.toList ≠ []) {sign : Char}
    (hsign : isInk sign = false) (rest : List Char) :
    word? isOne (' ' :: (word.toList ++ sign :: rest)) = some (word, sign :: rest) := by
  rw [word?, token_space, token_append hink hsome hsign]
  simp [hone]

theorem word?_metric {name : String} (hname : isMetricName name = true) (rest : List Char) :
    word? isMetricName (' ' :: (name.toList ++ ' ' :: rest)) = some (name, ' ' :: rest) := by
  obtain ⟨hink, hsome⟩ := isInk_of_isMetricName hname
  exact word?_append hname hink hsome rfl rest

theorem plainText?_of_isPlain {text : List Char} (hplain : isPlain text = true) :
    plainText? text = some text := by
  induction text with
  | nil => rfl
  | cons char text ih =>
      obtain ⟨hchar, htext⟩ := Bool.and_eq_true_iff.mp hplain
      have hslash : char ≠ '\\' := by
        rintro rfl
        cases hchar
      rw [plainText?.eq_def]
      simp only [if_neg hslash, ih htext, Option.map_some]

/-! Reading line after line. -/

theorem lines?_append {written more : List Char} {line : Option Line} (hsome : written ≠ [])
    (hread : line? (written ++ more) = some (line, more)) :
    lines? (written ++ more) = (lines? more).map (line.toList ++ ·) := by
  have hlength := List.length_pos_iff.mpr hsome
  rw [lines?, if_neg (List.append_ne_nil_of_left_ne_nil hsome _), hread]
  refine if_pos ?_
  rw [List.length_append]
  omega

theorem exists_of_lines? {text : List Char} {first : Line} {others : List Line}
    (hread : lines? text = some (first :: others)) :
    ∃ line rest following, line? text = some (line, rest) ∧
      line.toList ++ following = first :: others := by
  rw [lines?] at hread
  split at hread
  next => cases hread
  next =>
    split at hread
    next => cases hread
    next line rest hline =>
      obtain ⟨-, hrest⟩ := Option.ite_none_right_eq_some.mp hread
      obtain ⟨following, -, heq⟩ := Option.map_eq_some_iff.mp hrest
      exact ⟨line, rest, following, hline, heq⟩

/-! Reading metrics back. -/

/-- What there is to be told of one metric, with its value as a number. -/
structure Figure where
  name : String
  help : String
  type : MetricType
  value : Number

def Figure.lines (labels : Labels) (figure : Figure) : List Line :=
  [.help figure.name figure.help, .type figure.name figure.type.text,
    .sample figure.name labels figure.value none]

/-- A metric as it is written tells a figure. -/
structure Metric.Tells (metric : Metric) (figure : Figure) : Prop where
  name_eq : metric.name = figure.name
  help_eq : metric.help = figure.help
  type_eq : metric.type = figure.type
  named : isMetricName metric.name = true
  helped : isPlain metric.help.toList = true
  starts : metric.help.toList.head?.any isBlank = false
  inked : metric.value.toList.all isInk = true
  valued : number? metric.value.toList = some figure.value

namespace Metric.Tells

variable {metric : Metric} {figure : Figure} (htells : metric.Tells figure)
include htells

theorem help?_eq (more : List Char) :
    help? (' ' :: (metric.name.toList ++ ' ' :: (metric.help.toList ++ '\n' :: more))) =
      some (.help figure.name figure.help, more) := by
  have hskip : skipBlanks (metric.help.toList ++ '\n' :: more) =
      metric.help.toList ++ '\n' :: more := by
    have hstarts := htells.starts
    cases hchars : metric.help.toList with
    | nil => rfl
    | cons first rest =>
        rw [hchars] at hstarts
        exact skipBlanks_cons hstarts _
  have hline : ∀ char ∈ metric.help.toList, isInLine char = true := by
    intro char hmem
    have hplain := List.all_eq_true.mp htells.helped char hmem
    simp only [isPlainChar, Bool.and_eq_true] at hplain
    exact hplain.2
  have hfeed : ¬ isInLine '\n' = true := by decide
  rw [help?, word?_metric htells.named]
  simp only [Option.bind_eq_bind, Option.bind_some, skipBlanks_space, hskip]
  rw [List.takeWhile_append_of_pos hline, List.dropWhile_append_of_pos hline,
    List.takeWhile_cons_of_neg hfeed, List.dropWhile_cons_of_neg hfeed, List.append_nil,
    plainText?_of_isPlain htells.helped, Option.bind_some, after?_cons rfl, if_pos rfl,
    Option.bind_some, String.ofList_toList, htells.name_eq, htells.help_eq]

theorem line?_helpLine (more : List Char) :
    line? ((helpLine metric).toList ++ more) =
      some (some (.help figure.name figure.help), more) := by
  have htext : (helpLine metric).toList ++ more = '#' :: ' ' :: ("HELP".toList ++
      ' ' :: (metric.name.toList ++ ' ' :: (metric.help.toList ++ '\n' :: more))) := by
    simp [helpLine]
  rw [htext, line?_comment, comment?, token_space, token_append (by decide) (by decide) rfl]
  simp only [String.ofList_toList, if_true, htells.help?_eq, Option.map_some]

theorem type?_eq (more : List Char) :
    type? (' ' :: (metric.name.toList ++ ' ' :: (metric.type.text.toList ++ '\n' :: more))) =
      some (.type figure.name figure.type.text, more) := by
  have hkind : metric.type.text.toList.all isInk = true ∧
      metric.type.text.toList ≠ [] ∧ kinds.contains metric.type.text = true := by
    cases metric.type <;> decide
  obtain ⟨hink, hsome, hmem⟩ := hkind
  rw [type?, word?_metric htells.named]
  simp only [Option.bind_eq_bind, Option.bind_some]
  rw [word?_append hmem hink hsome rfl, Option.bind_some, after?_cons rfl, if_pos rfl,
    Option.bind_some, htells.name_eq, htells.type_eq]

theorem line?_typeLine (more : List Char) :
    line? ((typeLine metric).toList ++ more) =
      some (some (.type figure.name figure.type.text), more) := by
  have htext : (typeLine metric).toList ++ more = '#' :: ' ' :: ("TYPE".toList ++
      ' ' :: (metric.name.toList ++ ' ' :: (metric.type.text.toList ++ '\n' :: more))) := by
    simp [typeLine]
  rw [htext, line?_comment, comment?, token_space, token_append (by decide) (by decide) rfl]
  simp only [String.ofList_toList]
  rw [if_neg (by decide), if_pos trivial, htells.type?_eq, Option.map_some]

theorem sampled?_eq {labels : Labels} (hnodup : (labels.map Prod.fst).Nodup) (more : List Char) :
    sampled? metric.name labels (' ' :: (metric.value.toList ++ '\n' :: more)) =
      some (.sample figure.name labels figure.value none, more) := by
  have hsome : metric.value.toList ≠ [] := by
    intro hnone
    have hvalued := htells.valued
    rw [hnone] at hvalued
    cases hvalued
  rw [sampled?, value?, token_space, token_append htells.inked hsome rfl, htells.valued]
  have htoken : token ('\n' :: more) = ([], '\n' :: more) := rfl
  simp only [Option.bind_eq_bind, Option.map_some, Option.bind_some]
  rw [time?, htoken, if_pos rfl, Option.bind_some, after?_cons rfl, if_pos rfl, Option.bind_some,
    if_pos hnodup, htells.name_eq]

omit htells in
theorem toList_sampleLine (labels : Labels) (more : List Char) :
    (sampleLine labels metric).toList ++ more =
      metric.name.toList ++ '\x7b' :: ((labelText labels).toList ++
        '\x7d' :: ' ' :: (metric.value.toList ++ '\n' :: more)) := by
  simp [sampleLine]

theorem exists_sampleLine (labels : Labels) (more : List Char) :
    ∃ first rest, (sampleLine labels metric).toList ++ more = first :: rest ∧
      isMetricStart first = true ∧ isBlank first = false := by
  obtain ⟨first, rest, hchars, hstart, -⟩ := exists_of_isName htells.named
  have hink := isInk_of_isMetricPart (Bool.or_eq_true_iff.mpr (.inl hstart))
  rw [toList_sampleLine, hchars]
  exact ⟨first, _, rfl, hstart, isBlank_of_isInk hink⟩

theorem sample?_sampleLine (labels : Labels) (more : List Char) :
    sample? ((sampleLine labels metric).toList ++ more) =
      (labels? ((labelText labels).toList ++
        '\x7d' :: ' ' :: (metric.value.toList ++ '\n' :: more))).bind fun found =>
          sampled? metric.name found.1 found.2 := by
  obtain ⟨first, rest, hchars, -, hblank⟩ := htells.exists_sampleLine labels more
  rw [sample?, hchars, skipBlanks_cons hblank, ← hchars, toList_sampleLine,
    name?_append htells.named rfl]
  simp only [Option.bind_eq_bind, Option.bind_some]
  rw [sampleLabels?, after?_cons rfl, if_pos rfl]

theorem line?_sampleLine (labels : Labels) (more : List Char) :
    line? ((sampleLine labels metric).toList ++ more) =
      (sample? ((sampleLine labels metric).toList ++ more)).map fun found =>
        (some found.1, found.2) := by
  obtain ⟨first, rest, hchars, hstart, hblank⟩ := htells.exists_sampleLine labels more
  have hfeed : first ≠ '\n' := by
    rintro rfl
    cases hstart
  have hsign : first ≠ '#' := by
    rintro rfl
    cases hstart
  rw [hchars, line?, skipBlanks_cons hblank]
  simp only [if_neg hfeed, if_neg hsign]

/-- The lines of help and type are read whatever the labels are. -/
theorem lines?_write (labels : Labels) (more : List Char) :
    lines? ((write labels metric).toList ++ more) =
      (lines? ((sampleLine labels metric).toList ++ more)).map
        ([.help figure.name figure.help, .type figure.name figure.type.text] ++ ·) := by
  have hhelp : (helpLine metric).toList ≠ [] := by simp [helpLine]
  have htype : (typeLine metric).toList ≠ [] := by simp [typeLine]
  rw [write, String.toList_append, String.toList_append, List.append_assoc, List.append_assoc,
    lines?_append hhelp (htells.line?_helpLine _), lines?_append htype (htells.line?_typeLine _),
    Option.map_map]
  rfl

end Metric.Tells

section

variable {labels : Labels} (hnames : ∀ pair ∈ labels, isLabelName pair.1 = true)
include hnames

/-- Metrics are read back as they are meant if what has to be escaped in their labels is. -/
theorem lines?_escaped (hnodup : (labels.map Prod.fst).Nodup) {metrics : List Metric}
    {figures : List Figure} (htells : List.Forall₂ Metric.Tells metrics figures) :
    lines? (String.join (metrics.map (write (labels.map escapedLabel)))).toList =
      some (figures.flatMap (Figure.lines labels)) := by
  -- One metric is read whatever comes after it, so that the induction goes along the metrics.
  induction htells with
  | nil => rw [List.map_nil, String.join_nil, String.toList_empty, lines?, if_pos rfl]; rfl
  | @cons metric figure metrics figures htell _ ih =>
      have hsample : ∀ more, line? ((sampleLine (labels.map escapedLabel) metric).toList ++ more) =
          some (some (.sample figure.name labels figure.value none), more) := by
        intro more
        rw [htell.line?_sampleLine, htell.sample?_sampleLine, labels?_escaped hnames,
          Option.bind_some, htell.sampled?_eq hnodup, Option.map_some]
      have hsome : (sampleLine (labels.map escapedLabel) metric).toList ≠ [] := by
        simp [sampleLine]
      rw [List.map_cons, String.join_cons, String.toList_append, htell.lines?_write,
        lines?_append hsome (hsample _), ih]
      rfl

/-- A sample that is read with the labels that were written has nothing in them to be escaped. -/
theorem isPlain_of_lines? {metric : Metric} {figure : Figure} (htells : metric.Tells figure)
    {more : List Char} {others : List Line}
    (hread : lines? ((write labels metric).toList ++ more) = some (figure.lines labels ++ others)) :
    ∀ pair ∈ labels, isPlain pair.2.toList = true := by
  -- Help and type say nothing of the labels: what was read of them is left out on both sides.
  rw [htells.lines?_write] at hread
  obtain ⟨read, hread, heq⟩ := Option.map_eq_some_iff.mp hread
  obtain rfl : read = .sample figure.name labels figure.value none :: others := by
    simpa [Figure.lines] using heq
  obtain ⟨line, rest, following, hline, hfirst⟩ := exists_of_lines? hread
  rw [htells.line?_sampleLine, htells.sample?_sampleLine] at hline
  obtain ⟨⟨sample, left⟩, hsample, hline⟩ := Option.map_eq_some_iff.mp hline
  cases hline
  obtain ⟨⟨read, ending⟩, hlabels, hsampled⟩ := Option.bind_eq_some_iff.mp hsample
  obtain ⟨value, time, rfl⟩ := exists_of_sampled? hsampled
  obtain rfl : read = labels := by
    simp only [Option.toList_some, List.singleton_append, List.cons.injEq,
      Line.sample.injEq] at hfirst
    exact hfirst.1.2.1
  exact isPlain_of_labels? hnames hlabels

/-- Metrics are read back as they were written if and only if nothing in their labels has to be
escaped. -/
theorem lines?_join_iff (hnodup : (labels.map Prod.fst).Nodup) {metrics : List Metric}
    {figures : List Figure} (htells : List.Forall₂ Metric.Tells metrics figures)
    (hsome : metrics ≠ []) :
    lines? (String.join (metrics.map (write labels))).toList =
        some (figures.flatMap (Figure.lines labels)) ↔
      ∀ pair ∈ labels, isPlain pair.2.toList = true := by
  constructor
  · intro hread
    cases htells with
    | nil => exact absurd rfl hsome
    | cons htell _ =>
        rw [List.map_cons, String.join_cons, String.toList_append] at hread
        exact isPlain_of_lines? hnames htell hread
  · intro hplain
    have hread := lines?_escaped hnames hnodup htells
    rwa [map_escapedLabel hplain] at hread

end

theorem lines?_join_eq_none {labels : Labels}
    (hlabels : ∀ more, labels? ((labelText labels).toList ++ more) = none) {metrics : List Metric}
    {figures : List Figure} (htells : List.Forall₂ Metric.Tells metrics figures)
    (hsome : metrics ≠ []) : lines? (String.join (metrics.map (write labels))).toList = none := by
  cases htells with
  | nil => exact absurd rfl hsome
  | @cons metric _ metrics _ htell _ =>
      rw [List.map_cons, String.join_cons, String.toList_append, htell.lines?_write]
      generalize (String.join _).toList = more
      have hline : line? ((sampleLine labels metric).toList ++ more) = none := by
        rw [htell.line?_sampleLine, htell.sample?_sampleLine, hlabels]
        rfl
      rw [lines?, if_neg (by simp [sampleLine]), hline]
      rfl

end Pooling.Exposition
