import CnPropertyAgent.Python.Text

/-!
Taking tokens out of a text, with one `replace` after another.

A run is made of whitespace and tokens. Where a token stands in a run it is replaced by a
space, and what is left is a run of the later tokens, if the token can only be read from the
start of a piece to the end of one (`Peels`): tokens may start each other and follow each
other in any order. Undone from the last replacement to the first, whitespace is again a run.
-/

namespace Python

/-! ### Runs -/

/-- A whitespace character or a token. -/
inductive Piece (tokens : List Str) where
  | space (c : CodePoint) (blank : c.isSpace = true)
  | token (t : Str) (mem : t ∈ tokens)

abbrev Run (tokens : List Str) := List (Piece tokens)

def Piece.text {tokens : List Str} : Piece tokens → Str
  | .space c _ => [c]
  | .token t _ => t

/-- What is left of a piece without its token. -/
def Piece.spaces {tokens : List Str} : Piece tokens → Str
  | .space c _ => [c]
  | .token _ _ => []

def Run.text {tokens : List Str} (run : Run tokens) : Str := run.flatMap Piece.text

/-- The run without its tokens. -/
def Run.spaces {tokens : List Str} (run : Run tokens) : Str := run.flatMap Piece.spaces

/-- Nothing but whitespace. -/
def Str.Blank (s : Str) : Prop := ∀ c ∈ s, c.isSpace = true

theorem Str.blank_nil : Str.Blank [] := fun _ none => by cases none

section

variable {tokens : List Str} (piece : Piece tokens) (run : Run tokens)

theorem Run.text_cons : Run.text (piece :: run) = piece.text ++ run.text := List.flatMap_cons

theorem Run.blank_spaces : run.spaces.Blank := by
  intro c mem
  obtain ⟨piece, -, mem⟩ := List.mem_flatMap.mp mem
  cases piece with
  | space d blank => rwa [List.mem_singleton.mp mem]
  | token t _ => cases mem

variable {run} in
/-- The characters of a run are whitespace, or stand in a token. -/
theorem Run.mem_text {c : CodePoint} (mem : c ∈ run.text) :
    c.isSpace = true ∨ ∃ token ∈ tokens, c ∈ token := by
  obtain ⟨piece, -, mem⟩ := List.mem_flatMap.mp mem
  cases piece with
  | space d blank =>
      rw [List.mem_singleton.mp mem]
      exact Or.inl blank
  | token t listed => exact Or.inr ⟨t, listed, mem⟩

/-- Without tokens, a run is blank. -/
theorem Run.blank_text_of_nil (run : Run []) : run.text.Blank := by
  intro c mem
  rcases Run.mem_text mem with blank | ⟨token, none, -⟩
  · exact blank
  · cases none

/-- What holds of the characters of runs and of a text holds of the text between runs. -/
theorem Run.forall_between {p : CodePoint → Prop} {mid : Str} (of_run : ∀ run : Run tokens, ∀ c ∈ run.text, p c)
    (of_mid : ∀ c ∈ mid, p c) (before behind : Run tokens) :
    ∀ c ∈ before.text ++ (mid ++ behind.text), p c := by
  intro c mem
  rcases List.mem_append.mp mem with mem | mem
  · exact of_run before c mem
  rcases List.mem_append.mp mem with mem | mem
  · exact of_mid c mem
  · exact of_run behind c mem

/-- A blank text is a run. -/
theorem Str.Blank.exists_run {s : Str} (blank : s.Blank) : ∃ run : Run tokens, run.text = s := by
  induction s with
  | nil => exact ⟨[], rfl⟩
  | cons c s ih =>
      obtain ⟨run, rfl⟩ := ih fun d mem => blank d (List.mem_cons_of_mem c mem)
      exact ⟨.space c (blank c List.mem_cons_self) :: run, rfl⟩

end

/-! ### Tokens that peel off -/

/-- The token starts inside no later one. From its start, or from behind a later token within
it, it goes on with a starting character and starts no token but itself. -/
structure Peels (starts : CodePoint → Bool) (token : Str) (later : List Str) : Prop where
  nonempty : token ≠ []
  outside : ∀ other ∈ later, ∀ c ∈ token.head?, c ∉ other.tail
  whole : ∀ read < token.length, (read = 0 ∨ ∃ other ∈ later, other <:+ token.take read) →
    (∀ c ∈ (token.drop read).head?, starts c = true) ∧
      ∀ other ∈ token :: later, token.drop read <+: other → token.drop read = other

/-- Every token peels off before the later ones. -/
def Peelable (starts : CodePoint → Bool) : List Str → Prop
  | [] => True
  | token :: later => Peels starts token later ∧ Peelable starts later

theorem peels_iff {starts : CodePoint → Bool} {token : Str} {later : List Str} :
    Peels starts token later ↔ token ≠ [] ∧ (∀ other ∈ later, ∀ c ∈ token.head?, c ∉ other.tail) ∧
      ∀ read < token.length, (read = 0 ∨ ∃ other ∈ later, other <:+ token.take read) →
        (∀ c ∈ (token.drop read).head?, starts c = true) ∧
          ∀ other ∈ token :: later, token.drop read <+: other → token.drop read = other :=
  ⟨fun h => ⟨h.nonempty, h.outside, h.whole⟩, fun ⟨nonempty, outside, whole⟩ => ⟨nonempty, outside, whole⟩⟩

instance (starts : CodePoint → Bool) (token : Str) (later : List Str) : Decidable (Peels starts token later) :=
  decidable_of_iff' _ peels_iff

instance Peelable.decidable (starts : CodePoint → Bool) : ∀ tokens, Decidable (Peelable starts tokens)
  | [] => inferInstanceAs (Decidable True)
  | _ :: later =>
      have := Peelable.decidable starts later
      inferInstanceAs (Decidable (_ ∧ _))

/-! ### Replacing tokens -/

/-- An occurrence is replaced before what follows it. -/
theorem Str.replace_self_append {old new rest : Str} (nonempty : old ≠ []) :
    (old ++ rest).replace old new = new ++ rest.replace old new := by
  have passed (s : Str) : Str.replaceFrom old new s.length (s ++ rest) = rest.replace old new := by
    induction s with
    | nil => cases rest <;> rfl
    | cons c s ih => exact ih
  obtain ⟨c, tail, rfl⟩ := List.exists_cons_of_ne_nil nonempty
  have occurs : c :: tail <+: c :: (tail ++ rest) := List.prefix_append (c :: tail) rest
  rw [List.cons_append, replace, replaceFrom, if_pos occurs]
  exact congrArg (new ++ ·) (passed tail)

/-- A text is kept where the token starts neither before nor inside it. -/
theorem Str.replace_append_of_outside {other rest old new : Str} (nonempty : old ≠ [])
    (differ : ¬ old <+: other ++ rest) (outside : ∀ c ∈ old.head?, c ∉ other.tail) :
    (other ++ rest).replace old new = other ++ rest.replace old new := by
  cases other with
  | nil => rfl
  | cons c tail =>
      have plain : ∀ d ∈ tail, ∀ e ∈ old.head?, d ≠ e := by
        rintro d mem e first rfl
        exact outside d first mem
      have differ' : ¬ old <+: c :: (tail ++ rest) := differ
      rw [List.cons_append, replace_cons differ', replace_append plain nonempty, List.cons_append]

section

variable {starts : CodePoint → Bool} {token rest : Str} {later tokens : List Str}

theorem Peels.exists_start (peels : Peels starts token later) {read : Nat} (unread : read < token.length)
    (behind : read = 0 ∨ ∃ other ∈ later, other <:+ token.take read) :
    ∃ c tail, token.drop read = c :: tail ∧ starts c = true := by
  have first := List.drop_eq_getElem_cons unread
  refine ⟨_, _, first, (peels.whole read unread behind).1 _ ?_⟩
  rw [first]
  rfl

/-- Where a token, or what is left of it behind other tokens, can be read, it ends at the end
of a piece. -/
theorem Peels.exists_rest (peels : Peels starts token later)
    (closed : ∀ c : CodePoint, c.isSpace = true → starts c = false)
    (ends : ∀ c ∈ rest.head?, starts c = false) (run : Run (token :: later)) {read : Nat}
    (unread : read < token.length) (behind : read = 0 ∨ ∃ other ∈ later, other <:+ token.take read)
    (occurs : token.drop read <+: run.text ++ rest) :
    ∃ run' : Run (token :: later), run'.length < run.length ∧
      run.text ++ rest = token.drop read ++ (run'.text ++ rest) := by
  induction run generalizing read with
  | nil =>
      obtain ⟨c, tail, first, start⟩ := peels.exists_start unread behind
      rw [first] at occurs
      obtain ⟨after, split⟩ := occurs
      obtain rfl : c :: (tail ++ after) = rest := split
      rw [ends c rfl] at start
      cases start
  | cons piece run ih =>
      rw [Run.text_cons, List.append_assoc] at occurs ⊢
      cases piece with
      | space d blank =>
          obtain ⟨c, tail, first, start⟩ := peels.exists_start unread behind
          rw [first] at occurs
          obtain rfl : c = d := (List.cons_prefix_cons.mp occurs).1
          rw [closed c blank] at start
          cases start
      | token other mem =>
          rw [Piece.text] at occurs ⊢
          by_cases same : token.drop read = other
          · rw [same]
            exact ⟨run, Nat.lt_succ_self _, rfl⟩
          -- the token goes on behind this piece
          have within : other <+: token.drop read :=
            (List.prefix_or_prefix_of_prefix occurs (List.prefix_append other _)).resolve_left fun longer =>
              same ((peels.whole read unread behind).2 other mem longer)
          obtain ⟨left, split⟩ := within
          have left_eq : left = token.drop (read + other.length) := by
            rw [← List.drop_drop, ← split, List.drop_left]
          have unread' : read + other.length < token.length := by
            by_contra finished
            rw [List.drop_eq_nil_of_le (not_lt.mp finished)] at left_eq
            rw [left_eq, List.append_nil] at split
            exact same split.symm
          have later_mem : other ∈ later := by
            rcases List.mem_cons.mp mem with rfl | later_mem
            · omega
            · exact later_mem
          have taken : token.take (read + other.length) = token.take read ++ other := by
            rw [List.take_add, ← split, List.take_left]
          rw [← split, List.prefix_append_right_inj, left_eq] at occurs
          obtain ⟨run', shorter, rest_eq⟩ := ih unread'
            (Or.inr ⟨other, later_mem, taken ▸ List.suffix_append _ _⟩) occurs
          refine ⟨run', shorter.trans (Nat.lt_succ_self _), ?_⟩
          rw [rest_eq, ← split, left_eq, List.append_assoc]

/-- **One token.** Replacing the first token in a run leaves a run of the later ones. -/
theorem Peels.replace_run (peels : Peels starts token later)
    (closed : ∀ c : CodePoint, c.isSpace = true → starts c = false)
    (ends : ∀ c ∈ rest.head?, starts c = false) (run : Run (token :: later)) :
    ∃ run' : Run later,
      (run.text ++ rest).replace token [0x20] = run'.text ++ rest.replace token [0x20] := by
  induction shorter : run.length using Nat.strong_induction_on generalizing run with
  | _ n ih =>
      subst shorter
      by_cases occurs : token <+: run.text ++ rest
      · obtain ⟨run', shorter, split⟩ := peels.exists_rest closed ends run
          (List.length_pos_of_ne_nil peels.nonempty) (Or.inl rfl) occurs
        rw [List.drop_zero] at split
        obtain ⟨run'', replaced⟩ := ih _ shorter run' rfl
        rw [split, Str.replace_self_append peels.nonempty, replaced]
        exact ⟨.space 0x20 rfl :: run'', rfl⟩
      · cases run with
        | nil => exact ⟨[], rfl⟩
        | cons piece run =>
            obtain ⟨run', replaced⟩ := ih _ (Nat.lt_succ_self _) run rfl
            rw [Run.text_cons, List.append_assoc] at occurs ⊢
            cases piece with
            | space c blank =>
                refine ⟨.space c blank :: run', ?_⟩
                rw [Piece.text, List.singleton_append] at occurs ⊢
                rw [Str.replace_cons occurs, replaced]
                rfl
            | token other mem =>
                rcases List.mem_cons.mp mem with rfl | later_mem
                · exact absurd (List.prefix_append _ _) occurs
                · refine ⟨.token other later_mem :: run', ?_⟩
                  rw [Piece.text] at occurs ⊢
                  rw [Str.replace_append_of_outside peels.nonempty occurs (peels.outside other later_mem),
                    replaced, Run.text_cons, List.append_assoc]
                  rfl

/-- **All tokens.** Around a text in which no token starts, runs are replaced by whitespace. -/
theorem Peelable.replace_runs (peelable : Peelable starts tokens)
    (closed : ∀ c : CodePoint, c.isSpace = true → starts c = false) {mid : Str} (shown : mid ≠ [])
    (plain : ∀ c ∈ mid, starts c = false) (before behind : Run tokens) :
    ∃ blanks blanks' : Str, blanks.Blank ∧ blanks'.Blank ∧
      tokens.foldl (fun s token => s.replace token [0x20]) (before.text ++ (mid ++ behind.text)) =
        blanks ++ (mid ++ blanks') := by
  induction tokens with
  | nil => exact ⟨_, _, before.blank_text_of_nil, behind.blank_text_of_nil, rfl⟩
  | cons token later ih =>
      obtain ⟨peels, peelable⟩ := peelable
      have ends : ∀ c ∈ (mid ++ behind.text).head?, starts c = false := by
        intro c first
        rw [List.head?_append_of_ne_nil _ shown] at first
        exact plain c (List.mem_of_head? first)
      have outside : ∀ c ∈ mid, ∀ d ∈ token.head?, c ≠ d := by
        rintro c mem d first rfl
        have start := (peels.whole 0 (List.length_pos_of_ne_nil peels.nonempty) (Or.inl rfl)).1 c first
        rw [plain c mem] at start
        cases start
      have behind_ends : ∀ c ∈ List.head? ([] : Str), starts c = false := fun c none => by cases none
      obtain ⟨before', replaced⟩ := peels.replace_run closed ends before
      obtain ⟨behind', replaced'⟩ := peels.replace_run closed behind_ends behind
      have empty : Str.replace [] token [0x20] = [] := rfl
      rw [List.append_nil, empty, List.append_nil] at replaced'
      rw [List.foldl_cons, replaced, Str.replace_append outside peels.nonempty, replaced']
      exact ih peelable before' behind'

end

/-! ### Replacements undone -/

section

variable {token s y : Str} {later tokens : List Str}

theorem Str.of_replace_eq_nil {new : Str} (nonempty : token ≠ []) (shown : new ≠ [])
    (replaced : s.replace token new = []) : s = [] := by
  cases s with
  | nil => rfl
  | cons c s =>
      by_cases occurs : token <+: c :: s
      · obtain ⟨s', split⟩ := occurs
        rw [← split, Str.replace_self_append nonempty] at replaced
        exact absurd (List.append_eq_nil_iff.mp replaced).1 shown
      · rw [Str.replace_cons occurs] at replaced
        cases replaced

/-- Every character of the result is one of the text, or a space for an occurrence. -/
theorem Str.of_replace_eq_cons (nonempty : token ≠ []) {c : CodePoint}
    (replaced : s.replace token [0x20] = c :: y) :
    (∃ s' : Str, s = c :: s' ∧ s'.replace token [0x20] = y) ∨
      c = 0x20 ∧ ∃ s' : Str, s = token ++ s' ∧ s'.replace token [0x20] = y := by
  cases s with
  | nil => cases replaced
  | cons d s =>
      by_cases occurs : token <+: d :: s
      · obtain ⟨s', split⟩ := occurs
        rw [← split, Str.replace_self_append nonempty] at replaced
        obtain ⟨same, rest⟩ := List.cons.inj replaced
        exact Or.inr ⟨same.symm, s', split.symm, rest⟩
      · rw [Str.replace_cons occurs] at replaced
        obtain ⟨rfl, rest⟩ := List.cons.inj replaced
        exact Or.inl ⟨s, rfl, rest⟩

/-- A text without a space was there before. -/
theorem Str.of_replace_eq_append (nonempty : token ≠ []) {x : Str} (plain : 0x20 ∉ x)
    (replaced : s.replace token [0x20] = x ++ y) : ∃ s' : Str, s = x ++ s' ∧ s'.replace token [0x20] = y := by
  induction x generalizing s with
  | nil => exact ⟨s, rfl, replaced⟩
  | cons c x ih =>
      rcases Str.of_replace_eq_cons nonempty replaced with ⟨s', rfl, rest⟩ | ⟨rfl, -⟩
      · obtain ⟨s'', rfl, last⟩ := ih (fun mem => plain (List.mem_cons_of_mem c mem)) rest
        exact ⟨s'', rfl, last⟩
      · exact absurd List.mem_cons_self plain

/-- Where a run of the later tokens is, a run was before. -/
theorem Str.of_replace_eq_run (nonempty : token ≠ []) (plain : ∀ other ∈ later, (0x20 : CodePoint) ∉ other)
    (run : Run later) (replaced : s.replace token [0x20] = run.text ++ y) :
    ∃ (run' : Run (token :: later)) (s' : Str), s = run'.text ++ s' ∧ s'.replace token [0x20] = y := by
  induction run generalizing s with
  | nil => exact ⟨[], s, rfl, replaced⟩
  | cons piece run ih =>
      rw [Run.text_cons, List.append_assoc] at replaced
      cases piece with
      | space c blank =>
          rcases Str.of_replace_eq_cons nonempty replaced with ⟨s', rfl, rest⟩ | ⟨-, s', rfl, rest⟩
          · obtain ⟨run', s'', rfl, last⟩ := ih rest
            exact ⟨.space c blank :: run', s'', rfl, last⟩
          · obtain ⟨run', s'', rfl, last⟩ := ih rest
            refine ⟨.token token List.mem_cons_self :: run', s'', ?_, last⟩
            rw [Run.text_cons, List.append_assoc]
            rfl
      | token other mem =>
          obtain ⟨s', rfl, rest⟩ := Str.of_replace_eq_append nonempty (plain other mem) replaced
          obtain ⟨run', s'', rfl, last⟩ := ih rest
          refine ⟨.token other (List.mem_cons_of_mem token mem) :: run', s'', ?_, last⟩
          rw [Run.text_cons, List.append_assoc]
          rfl

/-- **All tokens, undone.** What becomes whitespace around a text without a space was a run. -/
theorem exists_runs_of_replaced (nonempty : ∀ token ∈ tokens, token ≠ [])
    (plain : ∀ token ∈ tokens, (0x20 : CodePoint) ∉ token) {mid blanks blanks' : Str} (unspaced : 0x20 ∉ mid)
    (blank : blanks.Blank) (blank' : blanks'.Blank)
    (replaced : tokens.foldl (fun s token => s.replace token [0x20]) s = blanks ++ (mid ++ blanks')) :
    ∃ before behind : Run tokens, s = before.text ++ (mid ++ behind.text) := by
  induction tokens generalizing s with
  | nil =>
      obtain ⟨before, rfl⟩ : ∃ run : Run [], run.text = blanks := blank.exists_run
      obtain ⟨behind, rfl⟩ : ∃ run : Run [], run.text = blanks' := blank'.exists_run
      exact ⟨before, behind, replaced⟩
  | cons token later ih =>
      have token_nonempty := nonempty token List.mem_cons_self
      have later_plain : ∀ other ∈ later, (0x20 : CodePoint) ∉ other :=
        fun other mem => plain other (List.mem_cons_of_mem token mem)
      obtain ⟨before, behind, split⟩ := ih (fun other mem => nonempty other (List.mem_cons_of_mem token mem))
        later_plain replaced
      obtain ⟨before', s', rfl, rest⟩ := Str.of_replace_eq_run token_nonempty later_plain before split
      obtain ⟨s'', rfl, last⟩ := Str.of_replace_eq_append token_nonempty unspaced rest
      rw [← List.append_nil behind.text] at last
      obtain ⟨behind', tail, rfl, nothing⟩ := Str.of_replace_eq_run token_nonempty later_plain behind last
      rw [Str.of_replace_eq_nil token_nonempty (List.cons_ne_nil _ _) nothing, List.append_nil]
      exact ⟨before', behind', rfl⟩

end

end Python
