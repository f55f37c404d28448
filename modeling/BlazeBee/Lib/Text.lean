import Mathlib.Data.List.DropRight
import Mathlib.Data.List.Infix
import Mathlib.Tactic.Common

/-!
The `str` methods of the Rust standard library that the agent uses. A Rust `str` is a
sequence of Unicode scalar values, as a Lean `String` is; its `len()` is
`String.utf8ByteSize`. A slice that a loop shortens is a `List Char`, and `byteLen` is
the distance that its offsets count.
-/

namespace BlazeBee.Lib.Text

/-- `char::is_whitespace`: the Unicode `White_Space` property. -/
def isWhitespace (c : Char) : Bool :=
  let n := c.toNat
  (0x9 ≤ n && n ≤ 0xD) || n == 0x20 || n == 0x85 || n == 0xA0 || n == 0x1680 ||
    (0x2000 ≤ n && n ≤ 0x200A) || n == 0x2028 || n == 0x2029 || n == 0x202F || n == 0x205F ||
    n == 0x3000

/-- `str::trim`. -/
def trim (s : String) : String :=
  String.ofList ((s.toList.dropWhile isWhitespace).rdropWhile isWhitespace)

/-- `str::trim_end`. -/
def trimEnd (s : String) : String := String.ofList (s.toList.rdropWhile isWhitespace)

/-- `str::trim_start_matches` with a character pattern. -/
def trimStartMatches (s : String) (c : Char) : String :=
  String.ofList (s.toList.dropWhile (· == c))

/-- `str::trim_end_matches` with a character pattern. -/
def trimEndMatches (s : String) (c : Char) : String :=
  String.ofList (s.toList.rdropWhile (· == c))

/-- `str::starts_with` with a string pattern. -/
def startsWith (pattern s : String) : Bool := pattern.toList.isPrefixOf s.toList

/-- `str::strip_suffix` with a string pattern. -/
def stripSuffix (pattern s : String) : Option String :=
  if pattern.toList.isSuffixOf s.toList then
    some (String.ofList (s.toList.take (s.toList.length - pattern.toList.length)))
  else none

/-- `str::contains` with a character pattern. -/
def contains (s : String) (c : Char) : Bool := s.toList.contains c

/-- The negative test, as a statement about the characters. -/
@[simp] theorem contains_eq_false_iff {s : String} {c : Char} :
    contains s c = false ↔ c ∉ s.toList := by
  simp [contains]

/-- What is stripped is exactly the pattern, at the end. -/
theorem stripSuffix_eq_some_iff {pattern s rest : String} :
    stripSuffix pattern s = some rest ↔ s = rest ++ pattern := by
  rw [stripSuffix]
  constructor
  · intro stripped
    split_ifs at stripped with ends
    obtain ⟨front, split⟩ := List.isSuffixOf_iff_suffix.mp ends
    obtain rfl := Option.some.inj stripped
    rw [← String.toList_inj, String.toList_append, String.toList_ofList, ← split,
      List.length_append, Nat.add_sub_cancel, List.take_left]
  · rintro rfl
    have ends : pattern.toList <:+ (rest ++ pattern).toList := by
      rw [String.toList_append]
      exact List.suffix_append _ _
    rw [if_pos (List.isSuffixOf_iff_suffix.mpr ends), String.toList_append, List.length_append,
      Nat.add_sub_cancel, List.take_left, String.ofList_toList]

variable (s : String) (c : Char)

/-- Trimming at the start removes a prefix. -/
theorem trimStartMatches_split : ∃ pre, s = String.ofList pre ++ trimStartMatches s c := by
  obtain ⟨pre, split⟩ := List.dropWhile_suffix (l := s.toList) (· == c)
  refine ⟨pre, String.toList_inj.mp ?_⟩
  rw [String.toList_append, String.toList_ofList, trimStartMatches, String.toList_ofList, split]

/-- Trimming at the end removes a suffix. -/
theorem trimEndMatches_split : ∃ post, s = trimEndMatches s c ++ String.ofList post := by
  obtain ⟨post, split⟩ := List.rdropWhile_prefix (· == c) s.toList
  refine ⟨post, String.toList_inj.mp ?_⟩
  rw [String.toList_append, String.toList_ofList, trimEndMatches, String.toList_ofList, split]

/-- Trimming makes a text no longer. -/
theorem utf8ByteSize_trimStartMatches_le :
    (trimStartMatches s c).utf8ByteSize ≤ s.utf8ByteSize := by
  obtain ⟨pre, split⟩ := trimStartMatches_split s c
  have size := congrArg String.utf8ByteSize split
  rw [String.utf8ByteSize_append] at size
  omega

/-- Trimming brings in no character. -/
theorem mem_of_mem_trimStartMatches {d : Char} (mem : d ∈ (trimStartMatches s c).toList) :
    d ∈ s.toList := by
  obtain ⟨pre, split⟩ := trimStartMatches_split s c
  rw [split, String.toList_append]
  exact List.mem_append_right _ mem

/-- Nor does it at the other end. -/
theorem mem_of_mem_trimEndMatches {d : Char} (mem : d ∈ (trimEndMatches s c).toList) :
    d ∈ s.toList := by
  obtain ⟨post, split⟩ := trimEndMatches_split s c
  rw [split, String.toList_append]
  exact List.mem_append_left _ mem

/-- Just the character that was put behind a string that does not end with it is trimmed. -/
theorem trimEndMatches_concat {name : List Char} {c : Char} (last : name.getLast? ≠ some c) :
    trimEndMatches (String.ofList (name ++ [c])) c = String.ofList name := by
  rw [trimEndMatches, String.toList_ofList, List.rdropWhile_concat_pos _ _ _ (by simp),
    List.rdropWhile_eq_self_iff.mpr]
  intro nonempty same
  apply last
  rw [List.getLast?_eq_some_getLast nonempty, eq_of_beq same]

/-- No whitespace at either end. -/
structure Trimmed (s : List Char) : Prop where
  first : ∀ c ∈ s.head?, isWhitespace c = false
  last : ∀ c ∈ s.getLast?, isWhitespace c = false

/-- What is trimmed already is what is left of it behind blanks. -/
theorem trim_append {blank d : List Char} (space : ∀ c ∈ blank, isWhitespace c = true)
    (trimmed : Trimmed d) : trim (String.ofList (blank ++ d)) = String.ofList d := by
  have started : d.dropWhile isWhitespace = d := by
    cases d with
    | nil => rfl
    | cons c d => exact List.dropWhile_cons_of_neg (by simp [trimmed.first c rfl])
  have ended : d.rdropWhile isWhitespace = d := by
    rw [List.rdropWhile_eq_self_iff]
    intro nonempty
    rw [trimmed.last _ (List.getLast?_eq_some_getLast nonempty)]
    exact Bool.false_ne_true
  rw [trim, String.toList_ofList, List.dropWhile_append_of_pos space, started, ended]

/-- Whitespace at the end is taken off, up to the last character that is none. -/
theorem trimEnd_append {s blank : List Char} (last : ∀ c ∈ s.getLast?, isWhitespace c = false)
    (space : ∀ c ∈ blank, isWhitespace c = true) :
    trimEnd (String.ofList (s ++ blank)) = String.ofList s := by
  have ended : s.rdropWhile isWhitespace = s := by
    rw [List.rdropWhile_eq_self_iff]
    intro nonempty
    rw [last _ (List.getLast?_eq_some_getLast nonempty)]
    exact Bool.false_ne_true
  have dropped : (s ++ blank).rdropWhile isWhitespace = s.rdropWhile isWhitespace := by
    have reversed : ∀ c ∈ blank.reverse, isWhitespace c = true :=
      fun c mem => space c (List.mem_reverse.mp mem)
    rw [List.rdropWhile, List.reverse_append, List.dropWhile_append_of_pos reversed,
      ← List.rdropWhile]
  rw [trimEnd, String.toList_ofList, dropped, ended]

/-- From a test that runs over a text to a statement about each of its characters. -/
theorem none_of_all {p : Char → Bool} {s : List Char} (all : s.all (fun c => !p c) = true) :
    ∀ c ∈ s, p c = false := by
  simpa using all

/-! ### Searching a slice -/

/-- `str::len`, of a slice. -/
def byteLen : List Char → Nat
  | [] => 0
  | c :: s => c.utf8Size + byteLen s

@[simp] theorem byteLen_nil : byteLen [] = 0 := rfl

@[simp] theorem byteLen_cons (s : List Char) : byteLen (c :: s) = c.utf8Size + byteLen s := rfl

/-- The bytes of two texts one behind the other. -/
theorem byteLen_append (s t : List Char) : byteLen (s ++ t) = byteLen s + byteLen t := by
  induction s with
  | nil => rw [List.nil_append, byteLen_nil, Nat.zero_add]
  | cons c s ih => rw [List.cons_append, byteLen_cons, byteLen_cons, ih, Nat.add_assoc]

/-- `&s[n..]`: a panic where the slice has no character that begins at `n`, nor its end. -/
def sliceFrom : List Char → Nat → Option (List Char)
  | s, 0 => some s
  | [], _ + 1 => none
  | c :: s, n + 1 => if c.utf8Size ≤ n + 1 then sliceFrom s (n + 1 - c.utf8Size) else none

/-- A slice that begins at the end of a part is the other part: the index lies between two
characters. -/
theorem sliceFrom_byteLen (s t : List Char) : sliceFrom (s ++ t) (byteLen s) = some t := by
  induction s with
  | nil => rw [byteLen_nil, List.nil_append, sliceFrom]
  | cons c s ih =>
      obtain ⟨n, size⟩ := Nat.exists_eq_succ_of_ne_zero (Nat.ne_of_gt c.utf8Size_pos)
      have length : byteLen (c :: s) = n + byteLen s + 1 := by
        rw [byteLen_cons, size]
        omega
      have fits : c.utf8Size ≤ n + byteLen s + 1 := by omega
      have later : n + byteLen s + 1 - c.utf8Size = byteLen s := by omega
      rw [List.cons_append, length, sliceFrom, if_pos fits, later, ih]

/-- How often a pattern stands in a slice. -/
def occurrences (pattern s : List Char) : Nat := s.tails.countP pattern.isPrefixOf

/-- The places where a pattern stands, counted from the front. -/
theorem occurrences_cons (pattern s : List Char) (c : Char) :
    occurrences pattern (c :: s) =
      occurrences pattern s + if pattern.isPrefixOf (c :: s) then 1 else 0 := by
  rw [occurrences, List.tails, List.countP_cons]
  rfl

/-- A place where it does not stand is not counted. -/
theorem occurrences_cons_of_not {pattern s : List Char} {c : Char}
    (other : ¬ pattern <+: c :: s) : occurrences pattern (c :: s) = occurrences pattern s := by
  rw [occurrences_cons, if_neg (mt List.isPrefixOf_iff_prefix.mp other), Nat.add_zero]

/-- What does not contain the first character of a pattern adds nothing. -/
theorem occurrences_append_of_not_mem {c : Char} {pattern v : List Char} (free : c ∉ v)
    (s : List Char) : occurrences (c :: pattern) (v ++ s) = occurrences (c :: pattern) s := by
  induction v with
  | nil => rfl
  | cons d v ih =>
      obtain ⟨other, free⟩ := not_or.mp (mt List.mem_cons.mpr free)
      have no_match : ¬ c :: pattern <+: d :: (v ++ s) := fun starts =>
        other (List.cons_prefix_cons.mp starts).1
      rw [List.cons_append, occurrences_cons_of_not no_match, ih free]

/-- A pattern that stands somewhere is an infix, and the other way round. -/
theorem occurrences_pos_iff {pattern s : List Char} :
    0 < occurrences pattern s ↔ pattern <:+: s := by
  rw [occurrences, List.countP_pos_iff]
  constructor
  · rintro ⟨tail, mem, starts⟩
    exact List.infix_iff_prefix_suffix.mpr
      ⟨tail, List.isPrefixOf_iff_prefix.mp starts, (List.mem_tails _ _).mp mem⟩
  · intro within
    obtain ⟨tail, starts, ends⟩ := List.infix_iff_prefix_suffix.mp within
    exact ⟨tail, (List.mem_tails _ _).mpr ends, List.isPrefixOf_iff_prefix.mpr starts⟩

/-- A part of a slice has no more of them. -/
theorem occurrences_le_of_infix {pattern s t : List Char} (part : s <:+: t) :
    occurrences pattern s ≤ occurrences pattern t := by
  obtain ⟨front, back, rfl⟩ := part
  rw [List.append_assoc]
  induction front with
  | cons c front ih =>
      rw [List.cons_append, occurrences_cons]
      exact Nat.le_add_right_of_le ih
  | nil =>
      rw [List.nil_append]
      induction s with
      | nil =>
          by_cases empty : pattern = []
          · rw [empty]
            exact occurrences_pos_iff.mpr (List.nil_infix)
          · have none : occurrences pattern [] = 0 :=
              Nat.eq_zero_of_not_pos fun some =>
                empty (List.infix_nil.mp (occurrences_pos_iff.mp some))
            rw [none]
            exact Nat.zero_le _
      | cons c s ih =>
          rw [List.cons_append, occurrences_cons, occurrences_cons]
          refine Nat.add_le_add ih ?_
          split_ifs with here there
          · exact Nat.le_refl 1
          · rw [List.isPrefixOf_iff_prefix] at here there
            exact absurd (here.trans (List.prefix_append (c :: s) back)) there
          · exact Nat.zero_le 1
          · exact Nat.le_refl 0

/-- `str::find` with a string pattern, as the slices before and from the match. -/
def findStr (pattern : List Char) : List Char → Option (List Char × List Char)
  | [] => if pattern.isEmpty then some ([], []) else none
  | c :: s =>
      if pattern.isPrefixOf (c :: s) then some ([], c :: s)
      else (findStr pattern s).map fun (before, tail) => (c :: before, tail)

/-- `str::contains` with a string pattern. -/
def containsStr (pattern s : List Char) : Bool := (findStr pattern s).isSome

section FindStr

variable {pattern : List Char}

/-- A pattern at the front is found there, with nothing before it. -/
theorem findStr_at_start (rest : List Char) :
    findStr pattern (pattern ++ rest) = some ([], pattern ++ rest) := by
  cases whole : pattern ++ rest with
  | nil => rw [findStr, (List.append_eq_nil_iff.mp whole).1]; rfl
  | cons c s =>
      rw [findStr, ← whole, if_pos (List.isPrefixOf_iff_prefix.mpr (List.prefix_append _ _))]

/-- Where the pattern does not begin, the search goes on behind the character. -/
theorem findStr_cons {c : Char} {s : List Char} (other : ¬ pattern <+: c :: s) :
    findStr pattern (c :: s) =
      (findStr pattern s).map fun (before, tail) => (c :: before, tail) :=
  if_neg (mt List.isPrefixOf_iff_prefix.mp other)

/-- A search ends without result exactly if the pattern is no infix. -/
theorem findStr_eq_none_iff {s : List Char} : findStr pattern s = none ↔ ¬ pattern <:+: s := by
  induction s with
  | nil => simp [findStr]
  | cons c s ih =>
      rw [List.infix_cons_iff, not_or]
      by_cases starts : pattern <+: c :: s
      · simp [findStr, starts]
      · rw [findStr_cons starts, Option.map_eq_none_iff, ih]
        exact ⟨fun later => ⟨starts, later⟩, fun free => free.2⟩

/-- The test of containment, as a statement about infixes. -/
@[simp] theorem containsStr_iff {s : List Char} :
    containsStr pattern s = true ↔ pattern <:+: s := by
  rw [containsStr, Option.isSome_iff_ne_none, ne_eq, findStr_eq_none_iff, not_not]

/-- The negative test, which a computation can settle. -/
theorem not_infix_of_containsStr {s : List Char} (absent : containsStr pattern s = false) :
    ¬ pattern <:+: s := by
  rw [← containsStr_iff, absent]
  exact Bool.false_ne_true

/-- The match is the first one. -/
theorem findStr_append {before : List Char} (first : ¬ pattern <:+: before ++ pattern.dropLast)
    (rest : List Char) :
    findStr pattern (before ++ (pattern ++ rest)) = some (before, pattern ++ rest) := by
  induction before with
  | nil => exact findStr_at_start rest
  | cons c before ih =>
      have later : ¬ pattern <:+: before ++ pattern.dropLast := fun within =>
        first (List.infix_cons_iff.mpr (Or.inr within))
      have other : ¬ pattern <+: c :: (before ++ (pattern ++ rest)) := by
        intro starts
        have front : c :: before ++ pattern.dropLast <+: c :: (before ++ (pattern ++ rest)) := by
          obtain ⟨last, split⟩ := List.dropLast_prefix pattern
          refine ⟨last ++ rest, ?_⟩
          rw [List.append_assoc, ← List.append_assoc _ last, split, List.cons_append]
        refine first (List.prefix_of_prefix_length_le starts front ?_).isInfix
        rw [List.length_append, List.length_cons, List.length_dropLast]
        omega
      rw [List.cons_append, findStr_cons other, ih later, Option.map_some]

/-- The only match is found. -/
theorem findStr_of_once {before rest : List Char}
    (once : occurrences pattern (before ++ (pattern ++ rest)) ≤ 1) :
    findStr pattern (before ++ (pattern ++ rest)) = some (before, pattern ++ rest) := by
  induction before with
  | nil => exact findStr_at_start rest
  | cons c before ih =>
      have some_later : 0 < occurrences pattern (before ++ (pattern ++ rest)) :=
        occurrences_pos_iff.mpr ⟨before, rest, List.append_assoc _ _ _⟩
      rw [List.cons_append, occurrences_cons] at once
      split_ifs at once with starts
      · omega
      · have later := ih once
        rw [List.cons_append, findStr_cons (mt List.isPrefixOf_iff_prefix.mpr starts), later,
          Option.map_some]

/-- A pattern without the character ends before it. -/
theorem prefix_of_append_cons {c : Char} (other : c ∉ pattern) {u v : List Char}
    (starts : pattern <+: u ++ c :: v) : pattern <+: u := by
  induction u generalizing pattern with
  | nil =>
      cases pattern with
      | nil => exact List.prefix_rfl
      | cons d pattern =>
          obtain ⟨rfl, -⟩ := List.cons_prefix_cons.mp starts
          exact absurd List.mem_cons_self other
  | cons e u ih =>
      cases pattern with
      | nil => exact List.nil_prefix
      | cons d pattern =>
          obtain ⟨same, later⟩ := List.cons_prefix_cons.mp starts
          have free : c ∉ pattern := fun mem => other (List.mem_cons_of_mem _ mem)
          exact List.cons_prefix_cons.mpr ⟨same, ih free later⟩

/-- A match does not reach over a character that the pattern does not have. -/
theorem infix_append_cons_iff {c : Char} (other : c ∉ pattern) {u v : List Char} :
    pattern <:+: u ++ c :: v ↔ pattern <:+: u ∨ pattern <:+: v := by
  constructor
  · intro within
    induction u with
    | nil =>
        rcases List.infix_cons_iff.mp within with starts | later
        · exact Or.inl (prefix_of_append_cons (u := []) other starts).isInfix
        · exact Or.inr later
    | cons d u ih =>
        rcases List.infix_cons_iff.mp within with starts | later
        · exact Or.inl (prefix_of_append_cons (u := d :: u) other starts).isInfix
        · exact (ih later).imp_left fun within => List.infix_cons_iff.mpr (Or.inr within)
  · rintro (within | within)
    · exact within.trans (List.prefix_append u (c :: v)).isInfix
    · exact within.trans ((List.suffix_cons c v).trans (List.suffix_append u (c :: v))).isInfix

end FindStr

/-- `str::find` with a character pattern, as the slices before and from the match. -/
def find (c : Char) : List Char → Option (List Char × List Char)
  | [] => none
  | d :: rest =>
      if d = c then some ([], d :: rest)
      else (find c rest).map fun (before, tail) => (d :: before, tail)

variable {c}

/-- The search goes on behind another character. -/
theorem find_cons_of_ne {d : Char} (other : d ≠ c) (rest : List Char) :
    find c (d :: rest) = (find c rest).map fun (before, tail) => (d :: before, tail) :=
  if_neg other

/-- The match is the first one. -/
theorem find_append {before : List Char} (first : c ∉ before) (rest : List Char) :
    find c (before ++ c :: rest) = some (before, c :: rest) := by
  induction before with
  | nil => simp [find]
  | cons d before ih =>
      obtain ⟨other, first⟩ := not_or.mp (mt List.mem_cons.mpr first)
      rw [List.cons_append, find_cons_of_ne (Ne.symm other), ih first, Option.map_some]

/-- A search ends without result exactly if the character is not there. -/
theorem find_eq_none_iff {s : List Char} : find c s = none ↔ c ∉ s := by
  induction s with
  | nil => simp [find]
  | cons d s ih =>
      by_cases same : d = c
      · simp [find, same]
      · rw [find_cons_of_ne same, Option.map_eq_none_iff, ih, List.mem_cons, not_or]
        exact ⟨fun free => ⟨Ne.symm same, free⟩, fun free => free.2⟩

/-- What is found splits the text at the first such character. -/
theorem split_of_find {s before tail : List Char} (found : find c s = some (before, tail)) :
    s = before ++ tail ∧ c ∉ before ∧ ∃ rest, tail = c :: rest := by
  induction s generalizing before with
  | nil => cases found
  | cons d s ih =>
      by_cases same : d = c
      · simp only [find, same, if_pos, Option.some.injEq, Prod.mk.injEq] at found
        obtain ⟨rfl, rfl⟩ := found
        exact ⟨by rw [same, List.nil_append], List.not_mem_nil, s, rfl⟩
      · rw [find_cons_of_ne same] at found
        obtain ⟨⟨before', tail'⟩, later, cut⟩ := Option.map_eq_some_iff.mp found
        obtain ⟨rfl, rfl⟩ := Prod.mk.inj cut
        obtain ⟨rfl, first, headed⟩ := ih later
        refine ⟨rfl, ?_, headed⟩
        rw [List.mem_cons, not_or]
        exact ⟨Ne.symm same, first⟩

/-- `str::strip_prefix` with a string pattern, of a slice. -/
def stripPrefix (pattern s : List Char) : Option (List Char) :=
  if pattern.isPrefixOf s then some (s.drop pattern.length) else none

/-- A pattern at the front is stripped. -/
theorem stripPrefix_append (pattern s : List Char) :
    stripPrefix pattern (pattern ++ s) = some s := by
  rw [stripPrefix, if_pos (List.isPrefixOf_iff_prefix.mpr (List.prefix_append _ _)),
    List.drop_left]

/-- Without the pattern at the front there is nothing to strip. -/
theorem stripPrefix_eq_none {pattern s : List Char} (other : ¬ pattern <+: s) :
    stripPrefix pattern s = none :=
  if_neg (mt List.isPrefixOf_iff_prefix.mp other)

/-- `str::split_once` with a character pattern. -/
def splitOnce (c : Char) (s : List Char) : Option (List Char × List Char) :=
  (find c s).map fun (before, tail) => (before, tail.tail)

/-- A text is split at the first such character. -/
theorem splitOnce_append {before : List Char} (first : c ∉ before) (rest : List Char) :
    splitOnce c (before ++ c :: rest) = some (before, rest) := by
  rw [splitOnce, find_append first]
  rfl

/-! ### Splitting into words -/

/-- The pieces between the characters that satisfy `sep`, less the empty ones. -/
def words (sep : Char → Bool) (s : List Char) : List (List Char) :=
  (s.splitOnP sep).filter (!·.isEmpty)

variable {sep : Char → Bool}

/-- A separator ends a word, so the words on its two sides are found independently. -/
theorem words_append_cons (s : List Char) {d : Char} (separates : sep d = true) (t : List Char) :
    words sep (s ++ d :: t) = words sep s ++ words sep t := by
  rw [words, List.splitOnP_append_cons s t separates, List.filter_append]
  rfl

/-- A text without a separator is one word. -/
theorem words_eq_singleton {s : List Char} (nonempty : s ≠ [])
    (free : ∀ d ∈ s, sep d = false) : words sep s = [s] := by
  rw [words, List.splitOnP_eq_singleton free]
  cases s with
  | nil => exact absurd rfl nonempty
  | cons d s => rfl

/-- What has no separator goes on in the first piece behind it. -/
theorem splitOnP_append_free {s : List Char} (free : ∀ d ∈ s, sep d = false) (t : List Char) :
    (s ++ t).splitOnP sep = (t.splitOnP sep).modifyHead (s ++ ·) := by
  induction s with
  | nil => cases split : t.splitOnP sep <;> simp [split]
  | cons d s ih =>
      have later := ih fun d mem => free d (.tail _ mem)
      rw [List.cons_append, List.splitOnP_cons_eq_if_modifyHead, free d List.mem_cons_self, later]
      cases t.splitOnP sep <;> simp

/-- A piece has none of the separators. -/
theorem free_of_mem_splitOnP {s piece : List Char} (mem : piece ∈ s.splitOnP sep) :
    ∀ d ∈ piece, sep d = false := by
  induction s generalizing piece with
  | nil =>
      rw [List.splitOnP_nil, List.mem_singleton] at mem
      simp [mem]
  | cons d s ih =>
      rw [List.splitOnP_cons_eq_if_modifyHead] at mem
      split at mem
      · rcases List.mem_cons.mp mem with rfl | later
        · simp
        · exact ih later
      · rename_i inside
        cases rest : s.splitOnP sep with
        | nil => exact absurd rest (List.splitOnP_ne_nil _ _)
        | cons first others =>
            rw [rest] at mem ih
            rcases List.mem_cons.mp mem with rfl | later
            · intro e mem
              rcases List.mem_cons.mp mem with rfl | mem
              · simpa using inside
              · exact ih List.mem_cons_self e mem
            · exact ih (List.mem_cons_of_mem _ later)

/-- A word is not empty, and has no separator. -/
theorem word_spec {s word : List Char} (mem : word ∈ words sep s) :
    word ≠ [] ∧ ∀ d ∈ word, sep d = false := by
  obtain ⟨piece, nonempty⟩ := List.mem_filter.mp mem
  exact ⟨by simpa using nonempty, free_of_mem_splitOnP piece⟩

/-- Where every character is written so that just the separators of one kind come out as
separators of another, the words are written one by one. -/
theorem words_flatMap {sep' : Char → Bool} {write : Char → List Char}
    (kept : ∀ d, sep' d = true → write d = [d] ∧ sep d = true)
    (written : ∀ d, sep' d = false → write d ≠ [] ∧ ∀ e ∈ write d, sep e = false)
    (s : List Char) : words sep (s.flatMap write) = (words sep' s).map (·.flatMap write) := by
  have split : (s.flatMap write).splitOnP sep = (s.splitOnP sep').map (·.flatMap write) := by
    induction s with
    | nil => rfl
    | cons d s ih =>
        rw [List.flatMap_cons, List.splitOnP_cons_eq_if_modifyHead]
        cases separates : sep' d with
        | true =>
            obtain ⟨same, separates⟩ := kept d separates
            rw [same, List.singleton_append, List.splitOnP_cons_eq_if_modifyHead, separates, ih]
            rfl
        | false =>
            rw [splitOnP_append_free (written d separates).2, ih]
            cases s.splitOnP sep' <;> simp
  have nonempty : ∀ w : List Char, (w.flatMap write).isEmpty = w.isEmpty := by
    intro w
    cases w with
    | nil => rfl
    | cons d w =>
        have some_char : write d ≠ [] := by
          cases separates : sep' d with
          | true => simp [(kept d separates).1]
          | false => exact (written d separates).1
        simp [some_char]
  rw [words, split, List.filter_map, words]
  congr 1
  exact List.filter_congr fun w _ => by simp [nonempty]

/-- `char::is_ascii_whitespace`. -/
def isAsciiWhitespace (c : Char) : Bool :=
  c == ' ' || c == '\t' || c == '\n' || c == '\x0C' || c == '\r'

/-- The ASCII whitespace is whitespace. -/
theorem isWhitespace_of_ascii {c : Char} (space : isAsciiWhitespace c = true) :
    isWhitespace c = true := by
  simp only [isAsciiWhitespace, Bool.or_eq_true, beq_iff_eq] at space
  rcases space with (((rfl | rfl) | rfl) | rfl) | rfl <;> rfl

/-- A digit is no whitespace. -/
theorem isWhitespace_eq_false_of_isDigit {c : Char} (digit : c.isDigit = true) :
    isWhitespace c = false := by
  have range : 48 ≤ c.toNat ∧ c.toNat ≤ 57 := by
    simpa [Char.isDigit, UInt32.le_iff_toNat_le] using digit
  simp [isWhitespace]
  omega

/-- `str::split_ascii_whitespace`. -/
def splitAsciiWhitespace (s : List Char) : List (List Char) := words isAsciiWhitespace s

/-! ### Lines -/

/-- The carriage return of a line end that is `\r\n`. -/
def stripCr (line : List Char) : List Char :=
  if line.getLast? = some '\r' then line.dropLast else line

/-- `str::lines`. -/
def lines (s : List Char) : List (List Char) :=
  let pieces := s.splitOn '\n'
  pieces.dropLast.map stripCr ++ pieces.getLast?.toList.filter (!·.isEmpty)

@[simp] theorem lines_nil : lines [] = [] := rfl

/-- A line ends at its newline, and a carriage return before that is not part of it. -/
theorem lines_line {line : List Char} (free : '\n' ∉ line) (rest : List Char) :
    lines (line ++ '\n' :: rest) = stripCr line :: lines rest := by
  have split : (line ++ '\n' :: rest).splitOn '\n' = line :: rest.splitOn '\n' := by
    rw [List.splitOn_append_cons_self, List.splitOn_eq_singleton free]
    rfl
  cases pieces : rest.splitOn '\n' with
  | nil => exact absurd pieces (List.splitOn_ne_nil _ _)
  | cons first others =>
      rw [lines, lines, split, pieces]
      simp

/-- What is left of a line is its beginning. -/
theorem stripCr_isPrefix (line : List Char) : stripCr line <+: line := by
  unfold stripCr
  split
  · exact List.dropLast_prefix line
  · exact List.prefix_rfl

/-- Only the end of a text matters to stripping. -/
theorem stripCr_append_of_ne_nil (s : List Char) {t : List Char} (nonempty : t ≠ []) :
    stripCr (s ++ t) = s ++ stripCr t := by
  rw [stripCr, stripCr, List.getLast?_append_of_ne_nil _ nonempty]
  split_ifs
  · exact List.dropLast_append_of_ne_nil nonempty
  · rfl

/-- The carriage return belongs to what stands at the end. -/
theorem stripCr_append {s : List Char} (other : s.getLast? ≠ some '\r') (t : List Char) :
    stripCr (s ++ t) = s ++ stripCr t := by
  by_cases empty : t = []
  · rw [empty, List.append_nil, stripCr, if_neg other]
    exact (List.append_nil s).symm
  · exact stripCr_append_of_ne_nil s empty

/-- The first line is where the text begins. -/
theorem prefix_of_head?_lines {s line : List Char} (first : line ∈ (lines s).head?) :
    line <+: s := by
  cases found : find '\n' s with
  | none =>
      have free := find_eq_none_iff.mp found
      rw [lines, List.splitOn_eq_singleton free] at first
      have mem := List.mem_of_head? first
      simp only [List.dropLast_singleton, List.map_nil, List.nil_append, List.getLast?_singleton,
        Option.toList_some, List.mem_filter, List.mem_singleton] at mem
      exact mem.1 ▸ List.prefix_rfl
  | some cut =>
      obtain ⟨before, tail⟩ := cut
      obtain ⟨rfl, free, rest, rfl⟩ := split_of_find found
      rw [lines_line free] at first
      rw [← Option.some.inj first]
      exact (stripCr_isPrefix before).trans (List.prefix_append _ _)

end BlazeBee.Lib.Text
