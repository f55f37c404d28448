import BlazeBee.Lib.Text

/-!
`${NAME}` substitution in configuration strings.

The scanner of `expand` copies everything up to the next `$` and there takes an escape
`$${` before a reference `${`. The text of an escape and the value of a reference go to
the output and are never scanned again.

* `expandLoop_literal`: what the scanner does with an escaped literal, given what
  follows it.
* `expand_render`: expanding a rendered template gives its text.
-/

namespace BlazeBee.Agent

open BlazeBee.Lib

/-- `EnvError`. -/
inductive EnvError where
  | unset (name : String)
  | malformed (offset : Nat)
deriving DecidableEq, Repr

/-- A byte of a variable name. A byte of any wider character is no ASCII letter or digit. -/
def isNameChar (c : Char) : Bool := c.isAlphanum || c == '_'

/-- What one round of the scanner takes from the input: the text that it stands for, what
is left, and the number of bytes taken. -/
structure Token where
  text : List Char
  rest : List Char
  width : Nat

/-- The body of the scanner's loop, at a `$` that stands `start` bytes into the input. -/
def token (lookup : String → Option String) (tail : List Char) (start : Nat) :
    Except EnvError Token :=
  match tail.dropPrefix? ['$', '$', '{'] with
  | some after => .ok ⟨['$', '{'], after, 3⟩
  | none =>
      match tail.dropPrefix? ['$', '{'] with
      | some after =>
          match Text.find '}' after with
          | none => .error (.malformed start)
          | some (name, close) =>
              if name.isEmpty || !name.all isNameChar then .error (.malformed start)
              else
                match lookup (String.ofList name) with
                | none => .error (.unset (String.ofList name))
                | some value => .ok ⟨value.toList, close.tail, 2 + Text.byteLen name + 1⟩
      | none => .ok ⟨['$'], tail.tail, 1⟩

variable {lookup : String → Option String}

/-- A token takes at least one character, so the scanner ends. -/
theorem token_shortens {tail : List Char} {start : Nat} {taken : Token} (nonempty : tail ≠ [])
    (ok : token lookup tail start = .ok taken) : taken.rest.length < tail.length := by
  have shorter : ∀ {pre : List Char} {after : List Char}, pre ≠ [] →
      tail.dropPrefix? pre = some after → after.length < tail.length := by
    intro pre after some_pre dropped
    obtain ⟨pre', rfl, same⟩ := List.dropPrefix?_eq_some_iff.mp dropped
    obtain rfl := eq_of_beq same
    simpa using List.length_pos_of_ne_nil some_pre
  unfold token at ok
  split at ok
  · rename_i after dropped
    obtain rfl := Except.ok.inj ok
    exact shorter (by simp) dropped
  · split at ok
    · rename_i after dropped
      have drops := shorter (by simp) dropped
      split at ok
      · cases ok
      · rename_i name close found
        split at ok
        · cases ok
        · split at ok
          · cases ok
          · obtain rfl := Except.ok.inj ok
            obtain ⟨split, -⟩ := Text.split_of_find found
            have size := congrArg List.length split
            rw [List.length_append] at size
            have cut := List.length_tail (l := close)
            simp only
            omega
    · obtain rfl := Except.ok.inj ok
      have cut := List.length_tail (l := tail)
      have some_tail := List.length_pos_of_ne_nil nonempty
      simp only
      omega

/-- The `while let` loop of `expand`. -/
def expandLoop (lookup : String → Option String) (rest : List Char) (offset : Nat)
    (out : List Char) : Except EnvError String :=
  match _found : Text.find '$' rest with
  | none => .ok (String.ofList (out ++ rest))
  | some (before, tail) =>
      let pos := Text.byteLen before
      match _taken : token lookup tail (offset + pos) with
      | .error e => .error e
      | .ok taken =>
          expandLoop lookup taken.rest (offset + pos + taken.width) (out ++ before ++ taken.text)
termination_by rest.length
decreasing_by
  obtain ⟨rfl, -, dollar, rfl⟩ := Text.split_of_find _found
  have less := token_shortens (List.cons_ne_nil _ _) _taken
  rw [List.length_append]
  omega

/-- `expand`. -/
def expand (input : String) (lookup : String → Option String) : Except EnvError String :=
  if !Text.contains input '$' then .ok input else expandLoop lookup input.toList 0 []

/-! ### The scanner -/

/-- An escape stands for `${`. -/
theorem token_escape (lookup : String → Option String) (after : List Char) (start : Nat) :
    token lookup ('$' :: '$' :: '{' :: after) start = .ok ⟨['$', '{'], after, 3⟩ := by
  simp [token, List.dropPrefix?]

/-- A name, as `[A-Za-z0-9_]+`. -/
structure IsName (name : List Char) : Prop where
  nonempty : name ≠ []
  chars : ∀ c ∈ name, isNameChar c = true

/-- A reference to a variable that is set stands for its value. -/
theorem token_reference {name : List Char} (named : IsName name) {value : String}
    (defined : lookup (String.ofList name) = some value) (rest : List Char) (start : Nat) :
    token lookup ('$' :: '{' :: name ++ '}' :: rest) start =
      .ok ⟨value.toList, rest, 2 + Text.byteLen name + 1⟩ := by
  have unbraced : '}' ∉ name := fun mem => nomatch named.chars _ mem
  have found := Text.find_append unbraced rest
  have accepted : (name.isEmpty || !name.all isNameChar) = false := by
    have all : name.all isNameChar = true := List.all_eq_true.mpr named.chars
    have some_name : name.isEmpty = false := by simpa using named.nonempty
    rw [all, some_name]
    rfl
  simp [token, List.dropPrefix?, found, accepted, defined]

/-- A `$` that begins neither an escape nor a reference stands for itself. -/
theorem token_dollar {rest : List Char} (reference : ∀ t, rest ≠ '{' :: t)
    (escape : ∀ t, rest ≠ '$' :: '{' :: t) (start : Nat) :
    token lookup ('$' :: rest) start = .ok ⟨['$'], rest, 1⟩ := by
  have unreferenced : ('$' :: rest).dropPrefix? ['$', '{'] = none := by
    rw [Option.eq_none_iff_forall_ne_some]
    intro after dropped
    obtain ⟨pre, split, same⟩ := List.dropPrefix?_eq_some_iff.mp dropped
    obtain rfl := eq_of_beq same
    exact reference after (List.cons.inj split).2
  have unescaped : ('$' :: rest).dropPrefix? ['$', '$', '{'] = none := by
    rw [Option.eq_none_iff_forall_ne_some]
    intro after dropped
    obtain ⟨pre, split, same⟩ := List.dropPrefix?_eq_some_iff.mp dropped
    obtain rfl := eq_of_beq same
    exact escape after (List.cons.inj split).2
  rw [token, unescaped, unreferenced]
  rfl

variable (offset : Nat) (out : List Char)

/-- The last stretch without a `$` is copied. -/
theorem expandLoop_of_not_mem {rest : List Char} (free : '$' ∉ rest) :
    expandLoop lookup rest offset out = .ok (String.ofList (out ++ rest)) := by
  have found := Text.find_eq_none_iff.mpr free
  unfold expandLoop
  split
  · rfl
  · rename_i found'
    cases found.symm.trans found'

/-- What stands before the first `$` is copied, and the scanner goes on after the token. -/
theorem expandLoop_dollar {before tail : List Char} (free : '$' ∉ before) :
    expandLoop lookup (before ++ '$' :: tail) offset out =
      match token lookup ('$' :: tail) (offset + Text.byteLen before) with
      | .error e => .error e
      | .ok taken =>
          expandLoop lookup taken.rest (offset + Text.byteLen before + taken.width)
            (out ++ before ++ taken.text) := by
  have found := Text.find_append free tail
  rw [expandLoop]
  split
  · rename_i found'
    cases found.symm.trans found'
  · rename_i found'
    obtain ⟨rfl, rfl⟩ := Prod.mk.inj (Option.some.inj (found.symm.trans found'))
    dsimp only
    split
    · rename_i next
      rw [next]
    · rename_i next
      rw [next]

/-- At a `$` the scanner goes on behind the token, wherever the loop has started. -/
theorem expandLoop_token {tail : List Char} {taken : Token}
    (next : token lookup ('$' :: tail) offset = .ok taken) :
    expandLoop lookup ('$' :: tail) offset out =
      expandLoop lookup taken.rest (offset + taken.width) (out ++ taken.text) := by
  have step : expandLoop lookup ([] ++ '$' :: tail) offset out = _ :=
    expandLoop_dollar offset out List.not_mem_nil
  rw [List.nil_append, Text.byteLen_nil, Nat.add_zero, next, List.append_nil] at step
  exact step

/-- Another character is copied, wherever the next `$` is. -/
theorem expandLoop_char {c : Char} (plain : c ≠ '$') (rest : List Char) :
    expandLoop lookup (c :: rest) offset out =
      expandLoop lookup rest (offset + c.utf8Size) (out ++ [c]) := by
  by_cases dollar : '$' ∈ rest
  · obtain ⟨before, tail, rfl, free⟩ := List.eq_append_cons_of_mem dollar
    have free' : '$' ∉ c :: before := by
      rw [List.mem_cons, not_or]
      exact ⟨Ne.symm plain, free⟩
    rw [← List.cons_append, expandLoop_dollar offset out free',
      expandLoop_dollar (offset + c.utf8Size) (out ++ [c]) free, Text.byteLen_cons,
      Nat.add_assoc, List.append_assoc out [c], List.singleton_append]
  · have free : '$' ∉ c :: rest := by
      rw [List.mem_cons, not_or]
      exact ⟨Ne.symm plain, dollar⟩
    rw [expandLoop_of_not_mem offset out free, expandLoop_of_not_mem _ _ dollar,
      List.append_assoc, List.singleton_append]

/-- The shortcut for an input without `$` changes nothing. -/
theorem expand_eq_loop (input : String) (lookup : String → Option String) :
    expand input lookup = expandLoop lookup input.toList 0 [] := by
  unfold expand
  split
  · rename_i free
    have free : '$' ∉ input.toList := by simpa using free
    rw [expandLoop_of_not_mem _ _ free, List.nil_append, String.ofList_toList]
  · rfl

/-! ### Templates -/

/-- `${` written as `$${`, from left to right. -/
def escape : List Char → List Char
  | '$' :: '{' :: rest => '$' :: '$' :: '{' :: escape rest
  | c :: rest => c :: escape rest
  | [] => []

/-- A part of a template. -/
inductive Segment where
  | literal (s : String)
  | reference (name : String)

/-- A part as it is written. -/
def Segment.render : Segment → List Char
  | .literal s => escape s.toList
  | .reference name => '$' :: '{' :: name.toList ++ ['}']

/-- What a part stands for. -/
def Segment.text (values : String → String) : Segment → List Char
  | .literal s => s.toList
  | .reference name => (values name).toList

/-- What may stand directly after a part: no literal after a literal, and no reference
after a literal that ends in `$`. -/
def Segment.Precedes : Segment → Segment → Prop
  | .literal _, .literal _ => False
  | .literal s, .reference _ => s.toList.getLast? ≠ some '$'
  | .reference _, _ => True

/-- A template as it is written in the configuration. -/
def render (template : List Segment) : String := String.ofList (template.flatMap Segment.render)

/-- What a template stands for. -/
def text (values : String → String) (template : List Segment) : String :=
  String.ofList (template.flatMap (Segment.text values))

/-- Parts that do not run together when they are written one after the other, and names that
the scanner takes. A literal that ends in `$` cannot be followed by a reference, since
together they would be written like an escape. -/
structure WellFormed (template : List Segment) : Prop where
  chain : template.IsChain Segment.Precedes
  names : ∀ name, .reference name ∈ template → IsName name.toList

/-- What may follow an escaped literal, so that the two do not run together. -/
structure Boundary (s following : List Char) : Prop where
  brace : ∀ t, following ≠ '{' :: t
  dollar : s.getLast? = some '$' → following = []

/-- What may follow a literal may follow the end of it. -/
theorem Boundary.tail {c : Char} {s following : List Char}
    (boundary : Boundary (c :: s) following) : Boundary s following where
  brace := boundary.brace
  dollar := by
    intro last
    apply boundary.dollar
    rw [List.getLast?_cons, last, Option.getD_some]

/-- A character that begins no `${` is written as it is. -/
theorem escape_of_plain {c : Char} {s : List Char} (plain : c = '$' → ∀ t, s ≠ '{' :: t) :
    escape (c :: s) = c :: escape s :=
  escape.eq_2 c s fun t dollar brace => plain dollar t brace

/-- Escaping keeps the first character. -/
theorem escape_cons (c : Char) (s : List Char) : ∃ t, escape (c :: s) = c :: t := by
  by_cases reference : c = '$' ∧ ∃ t, s = '{' :: t
  · obtain ⟨rfl, t, rfl⟩ := reference
    exact ⟨_, rfl⟩
  · exact ⟨_, escape_of_plain fun dollar t brace => reference ⟨dollar, t, brace⟩⟩

/-- Escaping a literal brings no brace to its front. -/
theorem escape_not_brace {s following : List Char} (plain : ∀ t, s ≠ '{' :: t)
    (boundary : Boundary s following) (t : List Char) : escape s ++ following ≠ '{' :: t := by
  cases s with
  | nil => exact boundary.brace t
  | cons c s =>
      obtain ⟨u, headed⟩ := escape_cons c s
      rw [headed]
      intro same
      exact plain s (by rw [(List.cons.inj same).1])

/-- After a `$` that begins no `${` in the literal, the escaped rest begins no `${`. -/
theorem escape_not_reference {s following : List Char} (plain : ∀ t, s ≠ '{' :: t)
    (boundary : Boundary ('$' :: s) following) (t : List Char) :
    escape s ++ following ≠ '$' :: '{' :: t := by
  cases s with
  | nil =>
      rw [boundary.dollar rfl]
      nofun
  | cons c s =>
      intro same
      by_cases reference : ∃ u, s = '{' :: u
      · obtain ⟨u, rfl⟩ := reference
        obtain rfl | other := eq_or_ne c '$'
        · simp [escape] at same
        · rw [escape_of_plain fun dollar => absurd dollar other] at same
          exact other (List.cons.inj same).1
      · have plain : ∀ u, s ≠ '{' :: u := fun u brace => reference ⟨u, brace⟩
        rw [escape_of_plain fun _ => plain] at same
        exact escape_not_brace plain boundary.tail.tail t (List.cons.inj same).2

/-- The scanner undoes the escapes of a literal and leaves what follows it. -/
theorem expandLoop_literal (lookup : String → Option String) {s following : List Char}
    (boundary : Boundary s following) :
    expandLoop lookup (escape s ++ following) offset out =
      expandLoop lookup following (offset + Text.byteLen (escape s)) (out ++ s) := by
  fun_induction escape s generalizing offset out with
  | case1 rest ih =>
      have taken := token_escape lookup (escape rest ++ following) offset
      have width : Text.byteLen ('$' :: '$' :: '{' :: escape rest) =
          3 + Text.byteLen (escape rest) := by
        simp only [Text.byteLen_cons]
        rw [← Nat.add_assoc, ← Nat.add_assoc]
        rfl
      rw [List.cons_append, List.cons_append, List.cons_append, expandLoop_token _ _ taken,
        ih _ _ boundary.tail.tail, width, Nat.add_assoc, List.append_assoc]
      rfl
  | case2 c rest plain ih =>
      have step : expandLoop lookup (c :: (escape rest ++ following)) offset out =
          expandLoop lookup (escape rest ++ following) (offset + c.utf8Size) (out ++ [c]) := by
        by_cases dollar : c = '$'
        · subst dollar
          have plain : ∀ t, rest ≠ '{' :: t := fun t brace => plain t rfl brace
          exact expandLoop_token _ _ (token_dollar (escape_not_brace plain boundary.tail)
            (escape_not_reference plain boundary) offset)
        · exact expandLoop_char _ _ dollar _
      rw [List.cons_append, step, ih _ _ boundary.tail, Text.byteLen_cons, Nat.add_assoc,
        List.append_assoc, List.singleton_append]
  | case3 => simp

/-- In a well-formed template the rest may follow the first literal. -/
theorem boundary_of_chain {s : String} {rest : List Segment}
    (chain : (.literal s :: rest).IsChain Segment.Precedes) :
    Boundary s.toList (rest.flatMap Segment.render) := by
  cases rest with
  | nil => exact ⟨fun t => nofun, fun _ => rfl⟩
  | cons next rest =>
      obtain ⟨precedes, -⟩ := List.isChain_cons_cons.mp chain
      cases next with
      | literal _ => exact precedes.elim
      | reference name =>
          constructor
          · intro t brace
            exact absurd (List.cons.inj brace).1 (by decide)
          · intro last
            exact absurd last precedes

/-- The scanner reads a template part by part, each as what it stands for. -/
theorem expandLoop_template {template : List Segment} (wellFormed : WellFormed template)
    {values : String → String}
    (defined : ∀ name, .reference name ∈ template → lookup name = some (values name)) :
    expandLoop lookup (template.flatMap Segment.render) offset out =
      .ok (String.ofList (out ++ template.flatMap (Segment.text values))) := by
  induction template generalizing offset out with
  | nil => exact expandLoop_of_not_mem offset out List.not_mem_nil
  | cons segment rest ih =>
      have later : WellFormed rest :=
        ⟨wellFormed.chain.of_cons, fun name mem => wellFormed.names name (.tail _ mem)⟩
      have definedLater : ∀ name, .reference name ∈ rest → lookup name = some (values name) :=
        fun name mem => defined name (.tail _ mem)
      rw [List.flatMap_cons, List.flatMap_cons, ← List.append_assoc]
      cases segment with
      | literal s =>
          have boundary := boundary_of_chain wellFormed.chain
          exact (expandLoop_literal offset out lookup boundary).trans
            (ih _ _ later definedLater)
      | reference name =>
          have named := wellFormed.names name List.mem_cons_self
          have value : lookup (String.ofList name.toList) = some (values name) := by
            rw [String.ofList_toList]
            exact defined name List.mem_cons_self
          have taken := token_reference named value (rest.flatMap Segment.render) offset
          have written : Segment.render (.reference name) ++ rest.flatMap Segment.render =
              '$' :: '{' :: name.toList ++ '}' :: rest.flatMap Segment.render := by
            simp [Segment.render]
          rw [written]
          exact (expandLoop_token offset out taken).trans (ih _ _ later definedLater)

/-- Expanding a rendered template gives the text of its literals and the values of its
references, whatever these contain; in particular, escaping is undone. -/
theorem expand_render {template : List Segment} (wellFormed : WellFormed template)
    {lookup : String → Option String} {values : String → String}
    (defined : ∀ name, .reference name ∈ template → lookup name = some (values name)) :
    expand (render template) lookup = .ok (text values template) ∧
      ∀ s : String, expand (String.ofList (escape s.toList)) lookup = .ok s := by
  constructor
  · rw [expand_eq_loop, render, String.toList_ofList, expandLoop_template _ _ wellFormed defined,
      List.nil_append]
    rfl
  · intro s
    have alone : Boundary s.toList [] := ⟨fun t => nofun, fun _ => rfl⟩
    have unescaped := expandLoop_literal 0 [] lookup alone
    rw [List.append_nil, expandLoop_of_not_mem _ _ List.not_mem_nil, List.append_nil,
      List.nil_append, String.ofList_toList] at unescaped
    rw [expand_eq_loop, String.toList_ofList, unescaped]

/-- Literals that end in a half-written or a whole escape, around a reference. -/
def passwordTemplate : List Segment := [.literal "$$\x7b", .reference "PASS_1", .literal "\x7d$"]

/-- A password that looks like a reference reaches the output as it is. -/
theorem expand_render_password :
    render passwordTemplate = "$$$\x7b$\x7bPASS_1\x7d\x7d$" ∧
      expand (render passwordTemplate)
        (fun name => if name = "PASS_1" then some "$\x7bHOST\x7d$" else none) =
        .ok "$$\x7b$\x7bHOST\x7d$\x7d$" := by
  have wellFormed : WellFormed passwordTemplate := by
    constructor
    · simp [passwordTemplate, Segment.Precedes]
    · intro name mem
      obtain rfl : name = "PASS_1" := by simpa [passwordTemplate] using mem
      exact ⟨by decide, List.all_eq_true.mp rfl⟩
  have defined : ∀ name, .reference name ∈ passwordTemplate →
      (if name = "PASS_1" then some "$\x7bHOST\x7d$" else none) =
        some ((fun _ => "$\x7bHOST\x7d$") name) := by
    intro name mem
    obtain rfl : name = "PASS_1" := by simpa [passwordTemplate] using mem
    rfl
  exact ⟨rfl, (expand_render wellFormed defined).1⟩

end BlazeBee.Agent
