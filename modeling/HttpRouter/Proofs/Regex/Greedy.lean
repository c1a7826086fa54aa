import HttpRouter.Proofs.Regex.Gaps

set_option autoImplicit false

/-!
# First matches of anchored sequences

Of several ways to one place the matcher keeps the first.  That is no loss where success depends on
the place only, and so the first match of a sequence is the one that a search through all ways would
find first.  For an anchored sequence of characters and gaps, `solve` is that search: the first
match closes a group for each gap around the value that `solve` has for it.
-/
namespace HttpRouter.Regex

theorem Offsets.has_add (seen : Offsets) (a b : Nat) :
    (seen.add a).has b = (seen.has b || decide (a = b)) := by
  simp [Offsets.has, Offsets.add, Nat.testBit_or, Nat.one_shiftLeft, Nat.testBit_two_pow]

section Search
variable {β : Type}

theorem findSome?_flatMap (k : State → Option β) (next : State → List State)
    (states : List State) :
    (states.flatMap next).findSome? k = states.findSome? fun s => (next s).findSome? k := by
  induction states with
  | nil => rfl
  | cons s rest ih =>
    rw [List.flatMap_cons, List.findSome?_append, ih, List.findSome?_cons]
    cases (next s).findSome? k <;> rfl

theorem findSome?_congr {α : Type} {f g : α → Option β} {xs : List α}
    (h : ∀ x ∈ xs, f x = g x) : xs.findSome? f = xs.findSome? g := by
  induction xs with
  | nil => rfl
  | cons x rest ih =>
    rw [List.findSome?_cons, List.findSome?_cons, h x List.mem_cons_self,
      ih fun y hy => h y (List.mem_cons_of_mem x hy)]

/-- States at offsets seen before do not count if the search fails at them. -/
theorem findSome?_keepNew {k : State → Option β} {states : List State} {seen : Offsets}
    (same : ∀ s ∈ states, ∀ t ∈ states, s.offset = t.offset → (k s).isSome = (k t).isSome)
    (failed : ∀ s ∈ states, seen.has s.offset = true → (k s).isSome = false) :
    (keepNew seen states).1.findSome? k = states.findSome? k := by
  induction states generalizing seen with
  | nil => rfl
  | cons s rest ih =>
    have hsame : ∀ t ∈ rest, ∀ u ∈ rest, t.offset = u.offset → (k t).isSome = (k u).isSome :=
      fun t ht u hu => same t (List.mem_cons_of_mem s ht) u (List.mem_cons_of_mem s hu)
    simp only [keepNew]
    split
    · rename_i hs
      have hk := failed s List.mem_cons_self hs
      rw [List.findSome?_cons, Option.isSome_eq_false_iff.1 hk |> Option.isNone_iff_eq_none.1]
      exact ih hsame fun t ht => failed t (List.mem_cons_of_mem s ht)
    · rw [List.findSome?_cons, List.findSome?_cons]
      cases hk : k s with
      | some b => rfl
      | none =>
        refine ih hsame fun t ht hseen => ?_
        rw [Offsets.has_add, Bool.or_eq_true, decide_eq_true_eq] at hseen
        rcases hseen with hseen | hseen
        · exact failed t (List.mem_cons_of_mem s ht) hseen
        · rw [← same s List.mem_cons_self t (List.mem_cons_of_mem s ht) hseen, hk]
          rfl

/-- Searching what follows several states is searching what follows each of them in turn, if success
depends on the offset only. -/
theorem findSome?_andThen {k : State → Option β} {states : List State}
    {next : State → List State}
    (same : ∀ s ∈ states.flatMap next, ∀ t ∈ states.flatMap next, s.offset = t.offset →
      (k s).isSome = (k t).isSome) :
    (andThen states next).findSome? k = states.findSome? fun s => (next s).findSome? k := by
  rw [← findSome?_flatMap]
  by_cases hs : ∃ s, states = [s]
  · obtain ⟨s, rfl⟩ := hs
    rw [List.flatMap_singleton]
    rfl
  · rw [andThen_eq fun s he => hs ⟨s, he⟩]
    refine findSome?_keepNew same fun s _ hseen => ?_
    simp [Offsets.has] at hseen

theorem map_head? {α : Type} (f : α → β) (xs : List α) :
    xs.head?.map f = xs.findSome? fun x => some (f x) := by
  cases xs <;> rfl

end Search

namespace State

def On (text : Text) (s : State) : Prop := s.rest = text.drop s.offset

/-- No choice to leave a copy out has been passed since the last character. -/
def Open (s : State) : Prop := ∀ choice ∈ s.passed, choice.head? ≠ some 0

/-- The state without what has no effect on the parts of a sequence. -/
def bare (s : State) : State := { s with before := none, passed := [] }

variable {text : Text} {s t : State}

theorem rest_eq (hs : s.On text) (ht : t.On text) (h : s.offset = t.offset) : s.rest = t.rest := by
  rw [hs, ht, h]

theorem on_start (text : Text) : (State.start text).On text := rfl

theorem step?_eq_some {chars : CharSet} :
    s.step? chars = some t ↔ ∃ c rest, s.rest = c :: rest ∧ chars.contains c = true ∧
      t = ⟨s.offset + 1, some c, rest, s.groups, []⟩ := by
  unfold step?
  cases s.rest with
  | nil => exact iff_of_false nofun nofun
  | cons c rest =>
    simp only
    split
    · rename_i hc
      constructor
      · rintro ⟨⟩
        exact ⟨c, rest, rfl, hc, rfl⟩
      · rintro ⟨d, after, he, -, rfl⟩
        cases he
        rfl
    · rename_i hc
      refine iff_of_false nofun ?_
      rintro ⟨d, after, he, hd, -⟩
      cases he
      exact hc hd

theorem On.step (h : s.On text) {chars : CharSet} (ht : s.step? chars = some t) :
    t.On text ∧ t.Open := by
  obtain ⟨c, rest, hr, -, rfl⟩ := step?_eq_some.1 ht
  refine ⟨?_, nofun⟩
  rw [h] at hr
  change rest = text.drop (s.offset + 1)
  rw [← List.drop_drop, hr]
  rfl

end State

theorem walk_eq_cons (chars : CharSet) (limit : Nat) (s : State) :
    walk chars limit s = s :: (walk chars limit s).drop 1 := by
  cases limit <;> rfl

theorem on_of_mem_walk {chars : CharSet} {text : Text} {limit : Nat} {s t : State} (h : s.On text)
    (ht : t ∈ (walk chars limit s).drop 1) : t.On text ∧ t.Open := by
  induction limit generalizing s with
  | zero => cases ht
  | succ limit ih =>
    simp only [walk, List.drop_succ_cons, List.drop_zero] at ht
    cases hs : s.step? chars with
    | none => simp [hs] at ht
    | some u =>
      obtain ⟨hu, ho⟩ := h.step hs
      simp only [hs] at ht
      rw [walk_eq_cons] at ht
      rcases List.mem_cons.1 ht with rfl | ht
      · exact ⟨hu, ho⟩
      · exact ih hu ht

namespace Atom

def regex (groups : Nat) : Atom → Regex
  | char c => .set (.single c)
  | gap => .group (groups + 1) inside

def nextGroups (groups : Nat) : Atom → Nat
  | char _ => groups
  | gap => groups + 1

theorem regexes_cons (groups : Nat) (atom : Atom) (atoms : List Atom) :
    regexes groups (atom :: atoms)
      = atom.regex groups :: regexes (atom.nextGroups groups) atoms := by
  cases atom <;> rfl

/-- The groups that values close in the gaps, the latest first. -/
def spans : Nat → Nat → List Atom → List Text → List Span
  | groups, offset, char _ :: atoms, values => spans groups (offset + 1) atoms values
  | groups, offset, gap :: atoms, value :: values =>
    spans (groups + 1) (offset + value.length) atoms values
      ++ [⟨groups + 1, offset, offset + value.length⟩]
  | _, _, _, _ => []

def closed? (accepts : Text → Bool) (groups : Nat) (atoms : List Atom) (s : State) :
    Option (List Span) :=
  (solve accepts atoms s.rest).map fun values => spans groups s.offset atoms values ++ s.groups

variable {accepts : Text → Bool} {atoms : List Atom} {text : Text} {groups : Nat}

theorem isSome_closed? {s t : State} (hs : s.On text) (ht : t.On text) (h : s.offset = t.offset) :
    (closed? accepts groups atoms s).isSome = (closed? accepts groups atoms t).isSome := by
  rw [closed?, closed?, Option.isSome_map, Option.isSome_map, State.rest_eq hs ht h]

theorem findSome?_char (c : Char) (a : Address) (s : State) :
    (run (.set (.single c)) a s).findSome? (closed? accepts groups atoms)
      = closed? accepts groups (char c :: atoms) s := by
  obtain ⟨offset, before, rest, closed, passed⟩ := s
  cases rest with
  | nil => rfl
  | cons d rest =>
    by_cases hd : d = c
    · subst hd
      have hc : (CharSet.single d).contains d = true := (CharSet.contains_single d d).2 rfl
      simp [run, State.step?, hc, closed?, solve, spans]
    · have hc : (CharSet.single c).contains d = false := by
        rw [← Bool.not_eq_true, CharSet.contains_single]
        exact hd
      simp [run, State.step?, hc, closed?, solve, hd]

/-- A walk over characters other than slashes reaches what a gap can take, the shortest first. -/
theorem walk_bare {limit : Nat} {s : State} (h : s.rest.length ≤ limit) :
    (walk (.compl (.single '/')) limit s).map State.bare
      = s.bare :: (heads s.rest).reverse.map fun head =>
          ⟨s.offset + head.1.length, none, head.2, s.groups, []⟩ := by
  obtain ⟨offset, before, rest, closed, passed⟩ := s
  induction rest generalizing limit offset before passed with
  | nil => cases limit <;> rfl
  | cons c rest ih =>
    cases limit with
    | zero => cases h
    | succ limit =>
      by_cases hc : c = '/'
      · subst hc
        rfl
      · have hs : (CharSet.compl (.single '/')).contains c = true := by
          rw [CharSet.contains_compl, Bool.not_eq_true', ← Bool.not_eq_true,
            CharSet.contains_single]
          exact hc
        have hi := @ih limit (offset + 1) (some c) [] (Nat.le_of_succ_le_succ h)
        simp only [walk, State.step?, hs, if_true, List.map_cons, hi, heads, if_neg hc]
        simp [State.bare, Function.comp_def, Nat.add_assoc, Nat.add_comm 1]

theorem runSet_bare (a : Address) (s : State) :
    (run inside a s).map State.bare = (heads s.rest).map fun head =>
      ⟨s.offset + head.1.length, none, head.2, s.groups, []⟩ := by
  have hb : State.bare ∘ State.erase = State.bare := rfl
  have hr := @runSet_map_erase (.compl (.single '/')) a 1 none true s (by simp)
  have hw := walk_bare (Nat.le_refl s.rest.length)
  rw [inside, run, ← hb, ← List.map_map, hr]
  simp only [if_true, Option.getD_none]
  rw [List.map_reverse, List.map_map, hb, List.map_drop, hw]
  simp

theorem findSome?_gap (a : Address) (s : State) :
    (run (.group (groups + 1) inside) a s).findSome? (closed? accepts (groups + 1) atoms)
      = closed? accepts groups (gap :: atoms) s := by
  have hb : closed? accepts (groups + 1) atoms ∘ State.close (groups + 1) s.offset
      = (closed? accepts (groups + 1) atoms ∘ State.close (groups + 1) s.offset) ∘ State.bare := rfl
  rw [run, List.findSome?_map, hb, ← List.findSome?_map, runSet_bare, List.findSome?_map, closed?,
    solve, List.map_findSome?]
  refine findSome?_congr fun head _ => ?_
  simp only [Function.comp, closed?, State.close, Option.map_map]
  refine congrArg (fun f => Option.map f _) (funext fun values => ?_)
  simp [spans]

theorem findSome?_regex (atom : Atom) (a : Address) (s : State) :
    (run (atom.regex groups) a s).findSome? (closed? accepts (atom.nextGroups groups) atoms)
      = closed? accepts groups (atom :: atoms) s := by
  cases atom with
  | char c => exact findSome?_char c a s
  | gap => exact findSome?_gap a s

theorem on_of_mem_regex {s t : State} (h : s.On text) {atom : Atom} {a : Address}
    (ht : t ∈ run (atom.regex groups) a s) : t.On text ∧ t.Open := by
  cases atom with
  | char c => exact h.step (Option.mem_toList.1 ht)
  | gap =>
    obtain ⟨u, hu, rfl⟩ := List.mem_map.1 ht
    simp only [inside, run, runSet, Nat.one_ne_zero, false_and, if_false, if_true,
      List.mem_reverse, List.mem_map, Prod.exists] at hu
    obtain ⟨v, more, hv, rfl⟩ := hu
    have hm := List.fst_mem_of_mem_zipIdx hv
    obtain ⟨hon, hopen⟩ := on_of_mem_walk h hm
    refine ⟨hon, fun choice hc => ?_⟩
    rcases List.mem_cons.1 hc with rfl | hc
    · simp [Address.exit]
    · exact hopen choice hc

/-- After a state on the text, searching the parts of a sequence is filling its gaps. -/
theorem findSome?_regexes {k : State → Option (List Span)}
    (hk : ∀ t : State, t.On text → t.Open →
      k t = if accepts t.rest then some t.groups else none)
    (atoms : List Atom) (groups : Nat) {r : Regex} {s : State}
    (hr : ∀ b, ∀ t ∈ r.run b s, t.On text ∧ t.Open) (a : Address) :
    ∃ b, (((regexes groups atoms).foldl seq r).run a s).findSome? k
      = (r.run b s).findSome? (closed? accepts groups atoms) := by
  induction atoms generalizing groups r a with
  | nil =>
    refine ⟨a, findSome?_congr fun t ht => ?_⟩
    obtain ⟨hon, hopen⟩ := hr a t ht
    rw [hk t hon hopen, closed?, solve]
    split <;> rfl
  | cons atom atoms ih =>
    have hseq : ∀ b, ∀ t ∈ (seq r (atom.regex groups)).run b s, t.On text ∧ t.Open := by
      intro b t ht
      obtain ⟨u, hu, ht⟩ := mem_andThen ht
      exact on_of_mem_regex (hr _ u hu).1 ht
    obtain ⟨b, hb⟩ := ih (atom.nextGroups groups) hseq a
    refine ⟨0 :: b, ?_⟩
    rw [regexes_cons, List.foldl_cons, hb, run, findSome?_andThen]
    · exact findSome?_congr fun t _ => findSome?_regex atom (1 :: b) t
    · have hon : ∀ t ∈ (r.run (0 :: b) s).flatMap ((atom.regex groups).run (1 :: b)),
          t.On text := by
        intro t ht
        obtain ⟨u, hu, ht⟩ := List.mem_flatMap.1 ht
        exact (on_of_mem_regex (hr _ u hu).1 ht).1
      exact fun t ht u hu => isSome_closed? (hon t ht) (hon u hu)

theorem on_of_mem_regexes (atoms : List Atom) (groups : Nat) {r : Regex} {s : State}
    (hr : ∀ b, ∀ t ∈ r.run b s, t.On text ∧ t.Open) :
    ∀ b, ∀ t ∈ ((regexes groups atoms).foldl seq r).run b s, t.On text ∧ t.Open := by
  induction atoms generalizing groups r with
  | nil => exact hr
  | cons atom atoms ih =>
    rw [regexes_cons]
    refine ih (atom.nextGroups groups) fun b t ht => ?_
    obtain ⟨u, hu, ht⟩ := mem_andThen ht
    exact on_of_mem_regex (hr _ u hu).1 ht

end Atom

def closes (slash whole : Bool) (rest : Text) : Bool :=
  !whole || rest.isEmpty || (slash && rest == ['/'])

section Closing
variable {text : Text} {r : Regex} {s : State}

theorem findSome?_finish (r : Regex) (s : State) (a : Address) :
    ((seq r (.look .finish)).run a s).findSome? (fun t => some t.groups)
      = (r.run (0 :: a) s).findSome? fun t => if t.rest.isEmpty then some t.groups else none := by
  rw [run, findSome?_andThen fun _ _ _ _ _ => rfl]
  refine findSome?_congr fun t _ => ?_
  cases ht : t.rest <;> simp [run, Look.holds, ht]

/-- The slash is taken if it is there, and the state before it comes second. -/
theorem run_slash {t : State} (ho : t.Open) (a : Address) :
    (rep 0 (some 1) true (.set (.single '/'))).run a t
      = (t.step? (.single '/')).toList ++ [t.pass (a.exit 0)] := by
  have hp : t.passed.contains (a.exit 0) = false := by
    rw [← Bool.not_eq_true, List.contains_iff_mem]
    exact fun hm => ho _ hm rfl
  simp only [run, runSet, hp, Bool.false_eq_true, and_false, if_false, Option.getD_some, walk]
  cases t.step? (.single '/') <;> rfl

theorem findSome?_slash (hr : ∀ b, ∀ t ∈ r.run b s, t.On text ∧ t.Open) (whole : Bool)
    (a : Address) :
    ((seq r (rep 0 (some 1) true (.set (.single '/')))).run a s).findSome?
        (fun t => if closes false whole t.rest then some t.groups else none)
      = (r.run (0 :: a) s).findSome? fun t =>
          if closes true whole t.rest then some t.groups else none := by
  have hon : ∀ t ∈ (r.run (0 :: a) s).flatMap
      ((rep 0 (some 1) true (.set (.single '/'))).run (1 :: a)), t.On text := by
    intro t ht
    obtain ⟨u, hu, ht⟩ := List.mem_flatMap.1 ht
    obtain ⟨hu, ho⟩ := hr _ u hu
    rw [run_slash ho, List.mem_append, Option.mem_toList, List.mem_singleton] at ht
    rcases ht with ht | rfl
    · exact (hu.step ht).1
    · exact hu
  rw [run, findSome?_andThen]
  · refine findSome?_congr fun t ht => ?_
    obtain ⟨-, ho⟩ := hr _ t ht
    obtain ⟨offset, before, rest, groups, passed⟩ := t
    rw [run_slash ho]
    cases rest with
    | nil => simp [State.step?, State.pass, closes]
    | cons c rest =>
      by_cases hc : c = '/'
      · subst hc
        cases whole <;> cases rest <;>
          simp [State.step?, State.pass, closes, CharSet.single, CharSet.contains]
      · have hn : (CharSet.single '/').contains c = false := by
          rw [← Bool.not_eq_true, CharSet.contains_single]
          exact hc
        cases whole <;> simp [State.step?, State.pass, closes, hn, hc]
  · intro t ht u hu h
    rw [State.rest_eq (hon t ht) (hon u hu) h]
    split <;> rfl

/-- The parts at the end close no groups, and whether they match depends on the rest of the text. -/
def Ends (ends : List Regex) (accepts : Text → Bool) : Prop :=
  ∀ ⦃text : Text⦄ ⦃r : Regex⦄ ⦃s : State⦄, (∀ b, ∀ t ∈ r.run b s, t.On text ∧ t.Open) →
    ∀ a, ∃ b, ((ends.foldl seq r).run a s).findSome? (fun t => some t.groups)
      = (r.run b s).findSome? fun t => if accepts t.rest then some t.groups else none

theorem ends_closing (slash whole : Bool) :
    Ends (closingParts slash whole) (closes slash whole) := by
  intro text r s hr a
  cases slash with
  | false =>
    cases whole with
    | false => exact ⟨a, rfl⟩
    | true =>
      refine ⟨0 :: a, (findSome?_finish r s a).trans ?_⟩
      simp [closes]
  | true =>
    cases whole with
    | false => exact ⟨0 :: a, findSome?_slash hr false a⟩
    | true =>
      have hs := findSome?_slash hr true (0 :: a)
      refine ⟨0 :: 0 :: a, (findSome?_finish _ s a).trans ?_⟩
      rw [← hs]
      simp [closes]

end Closing

theorem run_start (a : Address) (text : Text) :
    (look .start).run a (State.start text) = [State.start text] := rfl

/-- The first match from the beginning has the values that solve the atoms. -/
theorem groups_head?_anchored {ends : List Regex} {accepts : Text → Bool} (he : Ends ends accepts)
    (atoms : List Atom) (text : Text) (a : Address) :
    ((anchored atoms ends).run a (State.start text)).head?.map State.groups
      = (Atom.solve accepts atoms text).map (Atom.spans 0 0 atoms) := by
  have hstart : ∀ b, ∀ t ∈ (look .start).run b (State.start text), t.On text ∧ t.Open := by
    intro b t ht
    rw [run_start, List.mem_singleton] at ht
    rw [ht]
    exact ⟨State.on_start text, nofun⟩
  obtain ⟨b, hb⟩ := he (Atom.on_of_mem_regexes atoms 0 hstart) a
  obtain ⟨c, hc⟩ := @Atom.findSome?_regexes accepts text _ (fun t _ _ => rfl) atoms 0 _ _ hstart b
  rw [map_head?, anchored, sequence, List.foldl_append, hb, hc, run_start]
  simp [Atom.closed?, State.start]

theorem search_eq_none {atoms : List Atom} {ends : List Regex} (offset : Nat) (before : Char)
    (text : Text) : (anchored atoms ends).search offset (some before) text = none := by
  have hrun : ∀ s : State, s.before.isSome = true → (anchored atoms ends).run [] s = [] := by
    intro s hs
    apply Classical.byContradiction
    intro hn
    obtain ⟨b, hb⟩ := foldl_seq_ne_nil _ _ hn
    obtain ⟨c, hc⟩ := Option.isSome_iff_exists.1 hs
    simp [run, Look.holds, hc] at hb
  induction text generalizing offset before with
  | nil => simp [search, hrun]
  | cons c rest ih => simp [search, hrun, ih]

/-- Only a match from the beginning counts. -/
theorem search_anchored (atoms : List Atom) (ends : List Regex) (text : Text) :
    (anchored atoms ends).search 0 none text
      = ((anchored atoms ends).run [] (State.start text)).head? := by
  cases text with
  | nil => rfl
  | cons c rest =>
    rw [search, search_eq_none, Option.orElse_eq_orElse, Option.orElse_eq_or, Option.or_none]
    rfl

theorem captures?_ending {ends : List Regex} {accepts : Text → Bool} (he : Ends ends accepts)
    (atoms : List Atom) (text : Text) :
    (anchored atoms ends).captures? text
      = (Atom.solve accepts atoms text).map (Atom.spans 0 0 atoms) := by
  rw [captures?, search_anchored]
  exact groups_head?_anchored he atoms text []

theorem captures?_anchored (atoms : List Atom) (slash whole : Bool) (text : Text) :
    (anchored atoms (closingParts slash whole)).captures? text
      = (Atom.solve (closes slash whole) atoms text).map (Atom.spans 0 0 atoms) :=
  captures?_ending (ends_closing slash whole) atoms text

namespace Atom

theorem lt_index_of_mem_spans {atoms : List Atom} {groups offset : Nat} {values : List Text}
    {span : Span} (h : span ∈ spans groups offset atoms values) : groups < span.index := by
  induction atoms generalizing groups offset values with
  | nil => cases h
  | cons atom atoms ih =>
    cases atom with
    | char c => exact ih h
    | gap =>
      cases values with
      | nil => cases h
      | cons value values =>
        rcases List.mem_append.1 h with h | h
        · exact Nat.lt_of_succ_lt (ih h)
        · rw [List.mem_singleton.1 h]
          exact Nat.lt_succ_self groups

def fill : List Atom → List Text → Text
  | char c :: atoms, values => c :: fill atoms values
  | gap :: atoms, value :: values => value ++ fill atoms values
  | _, _ => []

theorem Fits.eq_fill {atoms : List Atom} {values : List Text} {text rest : Text}
    (h : Fits atoms values text rest) : text = fill atoms values ++ rest := by
  induction h with
  | nil rest => rfl
  | char c h ih => rw [ih, fill, List.cons_append]
  | gap hn hs h ih => rw [ih, fill, List.append_assoc]

/-- The groups hold the values, in their order, whatever these are. -/
theorem groupText?_spans {atoms : List Atom} {values : List Text}
    (hl : values.length = gaps atoms) (groups : Nat) (front back : Text) (before : List Span) :
    (List.range' (groups + 1) values.length).map
        (groupText? (front ++ (fill atoms values ++ back))
          (spans groups front.length atoms values ++ before))
      = values.map some := by
  induction atoms generalizing values groups front before with
  | nil =>
    obtain rfl := List.length_eq_zero_iff.1 hl
    rfl
  | cons atom atoms ih =>
    cases atom with
    | char c =>
      have hi := ih (by simpa [gaps] using hl) groups (front ++ [c]) before
      rw [List.append_assoc, List.length_append] at hi
      exact hi
    | gap =>
      cases values with
      | nil => simp [gaps] at hl
      | cons value values =>
        let span : Span := ⟨groups + 1, front.length, front.length + value.length⟩
        have hi := ih (by simpa [gaps] using hl) (groups + 1) (front ++ value) (span :: before)
        rw [List.append_assoc, List.length_append] at hi
        rw [spans, fill, List.append_assoc, List.append_assoc, List.length_cons, List.range'_succ,
          List.map_cons, List.map_cons, List.singleton_append, hi]
        -- The groups of the gaps behind this one have higher numbers.
        have hl : (spans (groups + 1) (front.length + value.length) atoms values).find?
            (·.index == groups + 1) = none := by
          rw [List.find?_eq_none]
          intro other ho
          have := lt_index_of_mem_spans ho
          simp only [beq_iff_eq]
          omega
        simp [groupText?, List.find?_append, hl]

theorem groups_fill {atoms : List Atom} {values : List Text} (hl : values.length = gaps atoms)
    (back : Text) :
    (List.range values.length).map
        (fun i => groupText? (fill atoms values ++ back) (spans 0 0 atoms values) (i + 1))
      = values.map some := by
  have hs := groupText?_spans hl 0 [] back []
  rw [List.append_nil, List.range'_eq_map_range, List.map_map] at hs
  rw [← hs]
  refine List.map_congr_left fun i _ => ?_
  simp [Nat.add_comm]

theorem groups_of_solve {accepts : Text → Bool} {atoms : List Atom} {text : Text}
    {values : List Text} (h : solve accepts atoms text = some values) :
    (List.range values.length).map
        (fun i => groupText? text (spans 0 0 atoms values) (i + 1)) = values.map some := by
  obtain ⟨rest, hf, -⟩ := solves_of_solve h
  rw [hf.eq_fill]
  exact groups_fill hf.length_eq rest

end Atom
end HttpRouter.Regex
