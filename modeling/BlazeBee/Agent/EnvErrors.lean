import BlazeBee.Agent.Env
import BlazeBee.Lib.Checks

/-!
What `expand` reports of an input that it cannot expand.

`pieces` cuts an input into characters, escapes and references from left to right, without
a look at the variables. Each piece either stands for a text or is a problem.

* `cut_of_pieces`, `pieces_of_cut`: the pieces are cut off one by one.
* `expand_eq_ok_iff`: an input of pieces that all stand for a text is expanded to these.
* `expand_eq_error_iff`: otherwise the first problem is reported, at its own offset.
* `expand_errors`: what follows for the two kinds of error, and for the `${` that are left.
-/

namespace BlazeBee.Agent

open BlazeBee.Lib

/-- What the scanner tells apart in an input. -/
inductive Piece where
  | char (c : Char)
  /-- `$${`. -/
  | escape
  /-- `${` with a name, or what stands in its place, up to the first `}`. -/
  | reference (name : List Char)
  /-- `${` without a `}` after it. -/
  | unterminated (rest : List Char)
deriving DecidableEq

/-- The pieces of an input; an escape is taken before a reference. -/
def pieces : List Char → List Piece
  | '$' :: '$' :: '{' :: rest => .escape :: pieces rest
  | '$' :: '{' :: rest =>
      match _found : Text.find '}' rest with
      | none => [.unterminated rest]
      | some (name, close) => .reference name :: pieces close.tail
  | c :: rest => .char c :: pieces rest
  | [] => []
termination_by s => s.length
decreasing_by
  · simp only [List.length_cons]
    omega
  · obtain ⟨rfl, -⟩ := Text.split_of_find _found
    simp only [List.length_cons, List.length_append, List.length_tail]
    omega
  · exact Nat.lt_succ_self _

/-- A piece as it is written. -/
def Piece.source : Piece → List Char
  | .char c => [c]
  | .escape => ['$', '$', '{']
  | .reference name => '$' :: '{' :: name ++ ['}']
  | .unterminated rest => '$' :: '{' :: rest

/-- The first piece of an input, and what is left. -/
inductive Cut : List Char → Piece → List Char → Prop where
  | char (c : Char) (rest : List Char) :
      (c = '$' → (∀ t, rest ≠ '{' :: t) ∧ ∀ t, rest ≠ '$' :: '{' :: t) →
      Cut (c :: rest) (.char c) rest
  | escape (rest : List Char) : Cut ('$' :: '$' :: '{' :: rest) .escape rest
  | reference (name rest : List Char) : '}' ∉ name →
      Cut ('$' :: '{' :: name ++ '}' :: rest) (.reference name) rest
  | unterminated (rest : List Char) : '}' ∉ rest →
      Cut ('$' :: '{' :: rest) (.unterminated rest) []

/-- A cut loses nothing. -/
theorem Cut.source_append {s rest : List Char} {p : Piece} (cut : Cut s p rest) :
    p.source ++ rest = s := by
  cases cut with
  | char c rest _ => rfl
  | escape rest => rfl
  | reference name rest _ => simp [Piece.source]
  | unterminated rest _ => exact List.append_nil _

/-- What is cut off first is the first piece. -/
theorem pieces_of_cut {s rest : List Char} {p : Piece} (cut : Cut s p rest) :
    pieces s = p :: pieces rest := by
  cases cut with
  | char c rest plain =>
      rw [pieces.eq_3]
      · rintro t rfl rfl
        exact (plain rfl).2 t rfl
      · rintro t rfl rfl
        exact (plain rfl).1 t rfl
  | escape rest => rw [pieces]
  | reference name rest free =>
      have found := Text.find_append free rest
      rw [List.cons_append, List.cons_append, pieces]
      split
      · rename_i found'
        cases found.symm.trans found'
      · rename_i found'
        obtain ⟨rfl, rfl⟩ := Prod.mk.inj (Option.some.inj (found.symm.trans found'))
        rfl
  | unterminated rest free =>
      have found := Text.find_eq_none_iff.mpr free
      have none : pieces [] = [] := by rw [pieces]
      rw [pieces, none]
      split
      · rfl
      · rename_i found'
        cases found.symm.trans found'

/-- Every input but the empty one has a first piece. -/
theorem exists_cut {s : List Char} (nonempty : s ≠ []) : ∃ p rest, Cut s p rest := by
  fun_cases pieces s with
  | case1 rest => exact ⟨_, _, .escape rest⟩
  | case2 rest found => exact ⟨_, _, .unterminated rest (Text.find_eq_none_iff.mp found)⟩
  | case3 rest name close found =>
      obtain ⟨rfl, free, after, rfl⟩ := Text.split_of_find found
      exact ⟨_, _, .reference name after free⟩
  | case4 c rest escape reference =>
      refine ⟨_, _, .char c rest ?_⟩
      rintro rfl
      exact ⟨fun t brace => reference t rfl brace, fun t dollar => escape t rfl dollar⟩
  | case5 => exact absurd rfl nonempty

/-- The first piece is what can be cut off first. -/
theorem cut_of_pieces {s : List Char} {p : Piece} {ps : List Piece}
    (cuts : pieces s = p :: ps) : ∃ rest, Cut s p rest ∧ pieces rest = ps := by
  have nonempty : s ≠ [] := by
    rintro rfl
    rw [pieces] at cuts
    cases cuts
  obtain ⟨p', rest, cut⟩ := exists_cut nonempty
  obtain ⟨rfl, rfl⟩ := List.cons.inj (cuts.symm.trans (pieces_of_cut cut))
  exact ⟨rest, cut, rfl⟩

/-- Only the empty input has no pieces. -/
theorem pieces_eq_nil_iff {s : List Char} : pieces s = [] ↔ s = [] := by
  constructor
  · intro none
    by_contra nonempty
    obtain ⟨p, rest, cut⟩ := exists_cut nonempty
    cases none.symm.trans (pieces_of_cut cut)
  · rintro rfl
    rw [pieces]

/-- The pieces are the whole input. -/
theorem flatMap_source_pieces (s : List Char) : (pieces s).flatMap Piece.source = s := by
  induction cuts : pieces s generalizing s with
  | nil => exact (pieces_eq_nil_iff.mp cuts).symm
  | cons p ps ih =>
      obtain ⟨rest, cut, later⟩ := cut_of_pieces cuts
      rw [List.flatMap_cons, ih rest later, cut.source_append]

/-- The first pieces are the pieces of what they are written as. -/
theorem pieces_flatMap_source {s : List Char} {earlier later : List Piece}
    (cuts : pieces s = earlier ++ later) : pieces (earlier.flatMap Piece.source) = earlier := by
  induction earlier generalizing s with
  | nil => exact pieces_eq_nil_iff.mpr rfl
  | cons p earlier ih =>
      rw [List.cons_append] at cuts
      obtain ⟨rest, cut, rests⟩ := cut_of_pieces cuts
      have whole := flatMap_source_pieces rest
      rw [rests, List.flatMap_append] at whole
      have cut' : Cut (p.source ++ earlier.flatMap Piece.source) p
          (earlier.flatMap Piece.source) := by
        cases cut with
        | char c rest plain =>
            -- What does not begin a reference still does not when cut short.
            refine .char c (earlier.flatMap Piece.source) fun dollar => ⟨?_, ?_⟩
            · intro t brace
              rw [brace, List.cons_append] at whole
              exact (plain dollar).1 _ whole.symm
            · intro t brace
              rw [brace, List.cons_append, List.cons_append] at whole
              exact (plain dollar).2 _ whole.symm
        | escape rest => exact .escape _
        | reference name rest free =>
            simpa [Piece.source] using Cut.reference name (earlier.flatMap Piece.source) free
        | unterminated rest free =>
            have none := (List.append_eq_nil_iff.mp whole).1
            rw [none, List.append_nil]
            exact .unterminated rest free
      rw [List.flatMap_cons, pieces_of_cut cut', ih rests]

/-! ### Texts and problems -/

variable {lookup : String → Option String}

/-- What a piece stands for. -/
inductive Piece.Stands (lookup : String → Option String) : Piece → List Char → Prop where
  | char (c : Char) : Stands lookup (.char c) [c]
  | escape : Stands lookup .escape ['$', '{']
  | reference {name : List Char} {value : String} : IsName name →
      lookup (String.ofList name) = some value → Stands lookup (.reference name) value.toList

/-- What is wrong with a piece that stands for nothing, at its offset. -/
inductive Piece.Problem (lookup : String → Option String) (start : Nat) :
    Piece → EnvError → Prop where
  | unterminated (rest : List Char) : Problem lookup start (.unterminated rest) (.malformed start)
  | illFormed {name : List Char} : ¬ IsName name →
      Problem lookup start (.reference name) (.malformed start)
  | unset {name : List Char} : IsName name → lookup (String.ofList name) = none →
      Problem lookup start (.reference name) (.unset (String.ofList name))

/-- The piece can be resolved. -/
def Piece.Resolves (lookup : String → Option String) (p : Piece) : Prop := ∃ t, p.Stands lookup t

/-- A piece stands for one text. -/
theorem Piece.Stands.unique {p : Piece} {t t' : List Char} (stands : p.Stands lookup t)
    (stands' : p.Stands lookup t') : t = t' := by
  cases stands with
  | char c => cases stands'; rfl
  | escape => cases stands'; rfl
  | reference _ defined =>
      cases stands' with
      | reference _ defined' => rw [Option.some.inj (defined.symm.trans defined')]

/-- A problem stands for nothing. -/
theorem Piece.Problem.not_resolves {p : Piece} {start : Nat} {e : EnvError}
    (problem : p.Problem lookup start e) : ¬ p.Resolves lookup := by
  rintro ⟨t, stands⟩
  cases problem with
  | unterminated rest => cases stands
  | illFormed illFormed =>
      cases stands with
      | reference named _ => exact illFormed named
  | unset _ unset =>
      cases stands with
      | reference _ defined => cases unset.symm.trans defined

/-- A piece has one problem at most. -/
theorem Piece.Problem.unique {p : Piece} {start : Nat} {e e' : EnvError}
    (problem : p.Problem lookup start e) (problem' : p.Problem lookup start e') : e = e' := by
  cases problem with
  | unterminated rest => cases problem'; rfl
  | illFormed illFormed =>
      cases problem' with
      | illFormed _ => rfl
      | unset named _ => exact absurd named illFormed
  | unset named _ =>
      cases problem' with
      | illFormed illFormed => exact absurd named illFormed
      | unset _ _ => rfl

/-- A piece either stands for a text or is a problem. -/
theorem Piece.resolves_or_problem (lookup : String → Option String) (p : Piece) (start : Nat) :
    p.Resolves lookup ∨ ∃ e, p.Problem lookup start e := by
  cases p with
  | char c => exact Or.inl ⟨_, .char c⟩
  | escape => exact Or.inl ⟨_, .escape⟩
  | unterminated rest => exact Or.inr ⟨_, .unterminated rest⟩
  | reference name =>
      by_cases named : IsName name
      · cases value : lookup (String.ofList name) with
        | none => exact Or.inr ⟨_, .unset named value⟩
        | some value' => exact Or.inl ⟨_, .reference named value⟩
      · exact Or.inr ⟨_, .illFormed named⟩

/-- The test of the source on what is between the braces, as the grammar of names. -/
theorem refused_iff {name : List Char} :
    (name.isEmpty || !name.all isNameChar) = true ↔ ¬ IsName name := by
  have named : IsName name ↔ name ≠ [] ∧ ∀ c ∈ name, isNameChar c = true :=
    ⟨fun named => ⟨named.nonempty, named.chars⟩, fun named => ⟨named.1, named.2⟩⟩
  rw [named, not_and_or, not_not, Bool.or_eq_true, List.isEmpty_iff, Bool.not_eq_true',
    ← Bool.not_eq_true, List.all_eq_true]

/-- The scanner takes a piece that stands for a text. -/
theorem expandLoop_stands {s rest : List Char} {p : Piece} {t : List Char} (cut : Cut s p rest)
    (stands : p.Stands lookup t) (offset : Nat) (out : List Char) :
    expandLoop lookup s offset out =
      expandLoop lookup rest (offset + Text.byteLen p.source) (out ++ t) := by
  cases cut with
  | char c rest plain =>
      cases stands
      by_cases dollar : c = '$'
      · subst dollar
        obtain ⟨reference, escape⟩ := plain rfl
        exact expandLoop_token offset out (token_dollar reference escape offset)
      · exact expandLoop_char offset out dollar rest
  | escape rest =>
      cases stands
      exact expandLoop_token offset out (token_escape lookup rest offset)
  | unterminated rest _ => cases stands
  | reference name rest _ =>
      cases stands with
      | reference named defined =>
          have width : 2 + Text.byteLen name + 1 = Text.byteLen (Piece.reference name).source := by
            have one : '$'.utf8Size = 1 ∧ '{'.utf8Size = 1 ∧ '}'.utf8Size = 1 := ⟨rfl, rfl, rfl⟩
            simp only [Piece.source, List.cons_append, Text.byteLen_append, Text.byteLen_cons,
              Text.byteLen_nil, one]
            omega
          rw [← width]
          exact expandLoop_token offset out (token_reference named defined rest offset)

/-- An error of a token ends the scan. -/
theorem expandLoop_refused {tail : List Char} {offset : Nat} {e : EnvError}
    (refused : token lookup ('$' :: tail) offset = .error e) (out : List Char) :
    expandLoop lookup ('$' :: tail) offset out = .error e := by
  have step : expandLoop lookup ([] ++ '$' :: tail) offset out = _ :=
    expandLoop_dollar offset out List.not_mem_nil
  rw [List.nil_append, Text.byteLen_nil, Nat.add_zero, refused] at step
  exact step

/-- The scanner stops at a problem. -/
theorem expandLoop_problem {s rest : List Char} {p : Piece} {offset : Nat} {e : EnvError}
    (cut : Cut s p rest) (problem : p.Problem lookup offset e) (out : List Char) :
    expandLoop lookup s offset out = .error e := by
  cases cut with
  | char c rest _ => cases problem
  | escape rest => cases problem
  | unterminated rest free =>
      cases problem
      have found := Text.find_eq_none_iff.mpr free
      refine expandLoop_refused ?_ out
      simp [token, List.dropPrefix?, found]
  | reference name rest free =>
      have found := Text.find_append free rest
      refine expandLoop_refused ?_ out
      cases problem with
      | illFormed illFormed =>
          have refused := refused_iff.mpr illFormed
          simp [token, List.dropPrefix?, found, refused]
      | unset named unset =>
          have accepted := eq_false_of_ne_true (mt refused_iff.mp (not_not.mpr named))
          simp [token, List.dropPrefix?, found, accepted, unset]

/-- The scanner gets through pieces that stand for texts, and knows where it is. -/
theorem expandLoop_earlier {s : List Char} {earlier later : List Piece}
    (cuts : pieces s = earlier ++ later) {texts : List (List Char)}
    (stand : List.Forall₂ (Piece.Stands lookup) earlier texts) :
    ∃ rest, pieces rest = later ∧ ∀ offset out, expandLoop lookup s offset out =
      expandLoop lookup rest (offset + Text.byteLen (earlier.flatMap Piece.source))
        (out ++ texts.flatten) := by
  induction stand generalizing s with
  | nil => exact ⟨s, cuts, fun offset out => by simp⟩
  | cons stands _ ih =>
      rw [List.cons_append] at cuts
      obtain ⟨rest, cut, rests⟩ := cut_of_pieces cuts
      obtain ⟨rest', ended, goes⟩ := ih rests
      refine ⟨rest', ended, fun offset out => ?_⟩
      rw [expandLoop_stands cut stands, goes, List.flatMap_cons, Text.byteLen_append,
        List.flatten_cons, Nat.add_assoc, List.append_assoc]

/-- Where every piece can be resolved, there are texts for all of them. -/
theorem exists_texts {ps : List Piece} (resolve : ∀ p ∈ ps, p.Resolves lookup) :
    ∃ texts, List.Forall₂ (Piece.Stands lookup) ps texts := by
  induction ps with
  | nil => exact ⟨[], .nil⟩
  | cons p ps ih =>
      obtain ⟨⟨t, stands⟩, later⟩ := List.forall_mem_cons.mp resolve
      obtain ⟨texts, stand⟩ := ih later
      exact ⟨t :: texts, .cons stands stand⟩

/-- The texts of the pieces, one after the other, are the result. -/
theorem expand_of_texts {input : String} {texts : List (List Char)}
    (stand : List.Forall₂ (Piece.Stands lookup) (pieces input.toList) texts) :
    expand input lookup = .ok (String.ofList texts.flatten) := by
  obtain ⟨rest, ended, goes⟩ := expandLoop_earlier (List.append_nil _).symm stand
  obtain rfl := pieces_eq_nil_iff.mp ended
  rw [expand_eq_loop, goes, expandLoop_of_not_mem _ _ List.not_mem_nil, List.append_nil,
    List.nil_append]

/-- The first problem is the error, at the offset of its piece. -/
theorem expand_of_problem {input : String} {earlier later : List Piece} {p : Piece} {e : EnvError}
    (cuts : pieces input.toList = earlier ++ p :: later)
    (resolve : ∀ q ∈ earlier, q.Resolves lookup)
    (problem : p.Problem lookup (Text.byteLen (earlier.flatMap Piece.source)) e) :
    expand input lookup = .error e := by
  obtain ⟨texts, stand⟩ := exists_texts resolve
  obtain ⟨rest, at_problem, goes⟩ := expandLoop_earlier cuts stand
  obtain ⟨rest', cut, -⟩ := cut_of_pieces at_problem
  rw [expand_eq_loop, goes, Nat.zero_add]
  exact expandLoop_problem cut problem _

/-- Either all pieces can be resolved, or there is a first problem. -/
theorem resolve_or_problem (lookup : String → Option String) (ps : List Piece) :
    (∀ p ∈ ps, p.Resolves lookup) ∨
      ∃ earlier p later e, ps = earlier ++ p :: later ∧ (∀ q ∈ earlier, q.Resolves lookup) ∧
        p.Problem lookup (Text.byteLen (earlier.flatMap Piece.source)) e := by
  rcases forall_or_first (Piece.Resolves lookup) ps with all | ⟨earlier, p, later, split, fine, bad⟩
  · exact Or.inl all
  · obtain ⟨e, problem⟩ := (p.resolves_or_problem lookup _).resolve_left bad
    exact Or.inr ⟨earlier, p, later, e, split, fine, problem⟩

/-- An input is expanded to the texts that its pieces stand for. -/
theorem expand_eq_ok_iff {input out : String} :
    expand input lookup = .ok out ↔ ∃ texts,
      List.Forall₂ (Piece.Stands lookup) (pieces input.toList) texts ∧
        out = String.ofList texts.flatten := by
  constructor
  · intro expanded
    rcases resolve_or_problem lookup (pieces input.toList) with
      all | ⟨earlier, p, later, e, cuts, fine, problem⟩
    · obtain ⟨texts, stand⟩ := exists_texts all
      exact ⟨texts, stand, Except.ok.inj (expanded.symm.trans (expand_of_texts stand))⟩
    · cases expanded.symm.trans (expand_of_problem cuts fine problem)
  · rintro ⟨texts, stand, rfl⟩
    exact expand_of_texts stand

/-- The error is that of the first problem, at its offset. -/
theorem expand_eq_error_iff {input : String} {e : EnvError} :
    expand input lookup = .error e ↔ ∃ earlier p later,
      pieces input.toList = earlier ++ p :: later ∧ (∀ q ∈ earlier, q.Resolves lookup) ∧
        p.Problem lookup (Text.byteLen (earlier.flatMap Piece.source)) e := by
  constructor
  · intro refused
    rcases resolve_or_problem lookup (pieces input.toList) with
      all | ⟨earlier, p, later, e', cuts, fine, problem⟩
    · obtain ⟨texts, stand⟩ := exists_texts all
      cases refused.symm.trans (expand_of_texts stand)
    · obtain rfl := Except.error.inj (refused.symm.trans (expand_of_problem cuts fine problem))
      exact ⟨earlier, p, later, cuts, fine, problem⟩
  · rintro ⟨earlier, p, later, cuts, fine, problem⟩
    exact expand_of_problem cuts fine problem

/-! ### What is left of the references -/

/-- A text begins with `{` only where the input begins with it or with a reference. -/
theorem brace_of_texts {s u : List Char} {texts : List (List Char)}
    (stand : List.Forall₂ (Piece.Stands lookup) (pieces s) texts)
    (brace : texts.flatten = '{' :: u) : (∃ t, s = '{' :: t) ∨ ∃ t, s = '$' :: '{' :: t := by
  cases cuts : pieces s with
  | nil =>
      rw [cuts] at stand
      cases stand
      cases brace
  | cons p ps =>
      rw [cuts] at stand
      obtain ⟨rest, cut, -⟩ := cut_of_pieces cuts
      cases stand with
      | cons stands _ =>
          cases cut with
          | char c rest _ =>
              cases stands
              exact Or.inl ⟨rest, by rw [(List.cons.inj brace).1]⟩
          | escape rest =>
              cases stands
              exact absurd (List.cons.inj brace).1 (by decide)
          | reference name rest _ => exact Or.inr ⟨_, rfl⟩
          | unterminated rest _ => exact Or.inr ⟨_, rfl⟩

/-- Where no value contains a `$`, every `${` of the texts comes from an escape. -/
theorem occurrences_texts {s : List Char} {ps : List Piece} {texts : List (List Char)}
    (cuts : pieces s = ps) (stand : List.Forall₂ (Piece.Stands lookup) ps texts)
    (plain : ∀ name value, .reference name ∈ ps → lookup (String.ofList name) = some value →
      '$' ∉ value.toList) :
    Text.occurrences ['$', '{'] texts.flatten = ps.count .escape := by
  induction stand generalizing s with
  | nil => rfl
  | @cons p t ps texts stands stand ih =>
      obtain ⟨rest, cut, rests⟩ := cut_of_pieces cuts
      have later := ih rests fun name value mem => plain name value (List.mem_cons_of_mem _ mem)
      rw [List.flatten_cons, List.count_cons, ← later]
      cases cut with
      | char c rest free =>
          cases stands
          have no_match : ¬ ['$', '{'] <+: c :: texts.flatten := by
            rintro ⟨u, same⟩
            obtain ⟨rfl, brace⟩ := List.cons.inj same
            rcases brace_of_texts (rests ▸ stand) brace.symm with ⟨t, rfl⟩ | ⟨t, rfl⟩
            · exact (free rfl).1 t rfl
            · exact (free rfl).2 t rfl
          exact Text.occurrences_cons_of_not no_match
      | escape rest =>
          cases stands
          have brace : ¬ ['$', '{'] <+: '{' :: texts.flatten := fun starts =>
            absurd (List.cons_prefix_cons.mp starts).1 (by decide)
          have here : ['$', '{'].isPrefixOf ('$' :: '{' :: texts.flatten) = true := rfl
          rw [List.cons_append, List.singleton_append, Text.occurrences_cons, if_pos here,
            Text.occurrences_cons_of_not brace]
          rfl
      | unterminated rest _ => cases stands
      | reference name rest _ =>
          cases stands with
          | reference _ defined =>
              have free := plain name _ List.mem_cons_self defined
              exact Text.occurrences_append_of_not_mem free _

/-- An error is reported exactly when a piece is a problem, and it is that of the first
one. An offset is that of a `${`, up to which the input can be expanded; before an unset
variable every reference is resolved. Where no value contains a `$`, every `${` of the
output comes from an escape. -/
theorem expand_errors (input : String) (lookup : String → Option String) :
    ((∃ e, expand input lookup = .error e) ↔
        ∃ p ∈ pieces input.toList, ∃ start e, p.Problem lookup start e) ∧
      (∀ e, expand input lookup = .error e ↔ ∃ earlier p later,
        pieces input.toList = earlier ++ p :: later ∧ (∀ q ∈ earlier, q.Resolves lookup) ∧
          p.Problem lookup (Text.byteLen (earlier.flatMap Piece.source)) e) ∧
      (∀ o, expand input lookup = .error (.malformed o) → ∃ before after,
        input.toList = before ++ '$' :: '{' :: after ∧ Text.byteLen before = o ∧
          ∃ out, expand (String.ofList before) lookup = .ok out) ∧
      (∀ n, expand input lookup = .error (.unset n) → lookup n = none ∧
        ∃ earlier name later, pieces input.toList = earlier ++ .reference name :: later ∧
          String.ofList name = n ∧ ∀ q ∈ earlier, q.Resolves lookup) ∧
      ∀ out, expand input lookup = .ok out →
        (∀ name value, .reference name ∈ pieces input.toList →
          lookup (String.ofList name) = some value → '$' ∉ value.toList) →
        Text.occurrences ['$', '{'] out.toList = (pieces input.toList).count .escape := by
  refine ⟨⟨?_, ?_⟩, fun e => expand_eq_error_iff, ?_, ?_, ?_⟩
  · rintro ⟨e, refused⟩
    obtain ⟨earlier, p, later, cuts, -, problem⟩ := expand_eq_error_iff.mp refused
    exact ⟨p, cuts ▸ List.mem_append_right _ List.mem_cons_self, _, _, problem⟩
  · rintro ⟨p, mem, start, e, problem⟩
    rcases resolve_or_problem lookup (pieces input.toList) with
      all | ⟨earlier, p', later, e', cuts, fine, problem'⟩
    · exact absurd (all p mem) problem.not_resolves
    · exact ⟨e', expand_of_problem cuts fine problem'⟩
  · intro o refused
    obtain ⟨earlier, p, later, cuts, fine, problem⟩ := expand_eq_error_iff.mp refused
    have whole := flatMap_source_pieces input.toList
    rw [cuts, List.flatMap_append, List.flatMap_cons] at whole
    have starts : ∃ after, p.source = '$' :: '{' :: after := by
      cases problem with
      | unterminated rest => exact ⟨rest, rfl⟩
      | illFormed _ => exact ⟨_, rfl⟩
    have offset : Text.byteLen (earlier.flatMap Piece.source) = o := by
      cases problem with
      | unterminated rest => rfl
      | illFormed _ => rfl
    obtain ⟨after, written⟩ := starts
    obtain ⟨texts, stand⟩ := exists_texts fine
    refine ⟨earlier.flatMap Piece.source, after ++ later.flatMap Piece.source, ?_, offset, ?_⟩
    · rw [← whole, written]
      rfl
    · have cuts' := pieces_flatMap_source cuts
      exact ⟨_, expand_of_texts (by rwa [String.toList_ofList, cuts'])⟩
  · intro n refused
    obtain ⟨earlier, p, later, cuts, fine, problem⟩ := expand_eq_error_iff.mp refused
    cases problem with
    | unset _ unset => exact ⟨unset, earlier, _, later, cuts, rfl, fine⟩
  · intro out expanded plain
    obtain ⟨texts, stand, rfl⟩ := expand_eq_ok_iff.mp expanded
    rw [String.toList_ofList]
    exact occurrences_texts rfl stand plain

end BlazeBee.Agent
