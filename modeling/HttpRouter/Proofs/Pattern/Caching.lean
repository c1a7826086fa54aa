import HttpRouter.Pattern.Compiler

set_option autoImplicit false

/-!
# Caching compilers

Every compiler stands for a function of the source, which no cache changes: in all workshops that a
program can bring about, a cache holds results of the function of its inner compiler and nothing
else.  After a call the cache has the result for the source of that call if there is one.  A caching
compiler therefore turns to its inner one once for every source that compiles, and each time for a
source that does not.  Copies of a compiler are the same compiler here.
-/
namespace HttpRouter

namespace Workshop

def without (w : Workshop) (cache : Nat) : Workshop :=
  { w with cached := w.cached.filter (·.cache != cache) }

/-- Caches hold results of the functions given for them, and their numbers have been given out. -/
def Sound (w : Workshop) (holds : Nat → Text → Option Expression) : Prop :=
  ∀ entry ∈ w.cached, entry.cache < w.made ∧
    holds entry.cache entry.source = some entry.result

variable {w : Workshop} {cache other : Nat} {source text : Text} {result : Expression}

theorem find?_remember :
    (w.remember cache source result).find? other text =
      if other = cache ∧ text = source then some result else w.find? other text := by
  by_cases h : other = cache ∧ text = source
  · obtain ⟨rfl, rfl⟩ := h
    simp [find?, remember]
  · have hb : (cache == other && source == text) = false := by
      rw [← Bool.not_eq_true, Bool.and_eq_true, beq_iff_eq, beq_iff_eq]
      exact fun he => h ⟨he.1.symm, he.2.symm⟩
    rw [if_neg h]
    simp only [find?, remember, List.find?_cons, hb]

theorem find?_without (h : other ≠ cache) :
    (w.without cache).find? other source = w.find? other source := by
  unfold find? without
  rw [List.find?_filter]
  congr 2
  funext entry
  rw [Bool.eq_iff_iff, decide_eq_true_iff]
  refine and_iff_right_of_imp fun hm => ?_
  rw [Bool.and_eq_true, beq_iff_eq] at hm
  rw [bne_iff_ne, hm.1]
  exact h

theorem find?_without_self : (w.without cache).find? cache source = none := by
  unfold find? without
  rw [Option.map_eq_none_iff, List.find?_eq_none]
  intro entry he hm
  rw [List.mem_filter, bne_iff_ne] at he
  rw [Bool.and_eq_true, beq_iff_eq] at hm
  exact he.2 hm.1

theorem remember_without (h : other ≠ cache) :
    (w.remember other source result).without cache
      = (w.without cache).remember other source result := by
  simp [without, remember, h]

theorem remember_without_self :
    (w.remember cache source result).without cache = w.without cache := by
  simp [without, remember]

theorem without_of_sound {holds : Nat → Text → Option Expression} (h : w.Sound holds)
    (hc : w.made ≤ cache) : w.without cache = w := by
  unfold without
  rw [List.filter_eq_self.2]
  intro entry he
  have hl := (h entry he).1
  simp only [bne_iff_ne]
  omega

theorem fresh_without {holds : Nat → Text → Option Expression} (h : w.Sound holds) :
    (Workshop.fresh w).2.without w.made = (Workshop.fresh w).2 := by
  change { w.without w.made with made := w.made + 1 } = _
  rw [without_of_sound h (Nat.le_refl w.made)]
  rfl

theorem find?_eq_some {holds : Nat → Text → Option Expression} (h : w.Sound holds)
    (hf : w.find? cache source = some result) : holds cache source = some result := by
  obtain ⟨entry, he, rfl⟩ := Option.map_eq_some_iff.1 hf
  have hm := List.find?_some he
  rw [Bool.and_eq_true, beq_iff_eq, beq_iff_eq] at hm
  rw [← hm.1, ← hm.2]
  exact (h entry (List.mem_of_find?_eq_some he)).2

theorem Sound.remember {holds : Nat → Text → Option Expression} (h : w.Sound holds)
    (hc : cache < w.made) (hr : holds cache source = some result) :
    (w.remember cache source result).Sound holds := by
  intro entry he
  rcases List.mem_cons.1 he with rfl | he
  · exact ⟨hc, hr⟩
  · exact h entry he

end Workshop

namespace Compiler

theorem made_compile (c : Compiler) (source : Text) (w : Workshop) :
    (c.compile source w).2.made = w.made := by
  induction c generalizing w with
  | standard | supplied => rfl
  | caching cache inner ih =>
    have made := ih w
    simp only [compile]
    generalize inner.compile source w = call at made
    obtain ⟨answer, after⟩ := call
    cases w.find? cache source with
    | some result => rfl
    | none => cases answer <;> exact made

def meaning : Compiler → Text → Option Expression
  | standard => Expression.parse?
  | supplied f => f
  | caching _ inner => inner.meaning

/-- The caches of a compiler have numbers below the limit, lower ones further inside, and hold what
the compilers inside them make of a source. -/
def Numbered (holds : Nat → Text → Option Expression) : Nat → Compiler → Prop
  | _, standard | _, supplied _ => True
  | limit, caching cache inner =>
    cache < limit ∧ holds cache = inner.meaning ∧ inner.Numbered holds cache

section
variable {holds : Nat → Text → Option Expression} {c inner : Compiler} {w : Workshop}
  {limit cache : Nat}

theorem Numbered.change {others : Nat → Text → Option Expression} {more : Nat}
    (h : c.Numbered holds limit) (hl : limit ≤ more)
    (hs : ∀ cache < limit, others cache = holds cache) : c.Numbered others more := by
  induction c generalizing limit more with
  | standard | supplied => trivial
  | caching cache inner ih =>
    obtain ⟨hc, hm, hi⟩ := h
    exact ⟨by omega, (hs cache hc).trans hm,
      ih hi (Nat.le_refl cache) fun other ho => hs other (by omega)⟩

/-- A call gives the meaning of the source and keeps the workshop sound. -/
theorem compile_of_sound (h : c.Numbered holds limit) (hs : w.Sound holds) (hl : limit ≤ w.made)
    (source : Text) :
    (c.compile source w).1 = c.meaning source ∧ (c.compile source w).2.Sound holds := by
  induction c generalizing limit w with
  | standard => exact ⟨rfl, hs⟩
  | supplied f => exact ⟨rfl, hs⟩
  | caching cache inner ih =>
    obtain ⟨hc, hm, hi⟩ := h
    simp only [compile]
    cases hf : w.find? cache source with
    | some result =>
      have hr := Workshop.find?_eq_some hs hf
      rw [hm] at hr
      exact ⟨hr.symm, hs⟩
    | none =>
      have made := ih hi hs (by omega)
      have hlt : cache < (inner.compile source w).2.made := by
        rw [made_compile]
        omega
      generalize inner.compile source w = call at made hlt
      obtain ⟨answer, after⟩ := call
      obtain ⟨rfl, hs'⟩ := made
      cases hr : inner.meaning source with
      | none => exact ⟨hr.symm, hs'⟩
      | some result => exact ⟨hr.symm, hs'.remember hlt (by rw [hm, hr])⟩

/-- Caches from the limit on are out of reach. -/
theorem find?_compile (h : c.Numbered holds limit) (hl : limit ≤ cache) (source text : Text) :
    (c.compile source w).2.find? cache text = w.find? cache text := by
  induction c generalizing limit w with
  | standard | supplied => rfl
  | caching other inner ih =>
    obtain ⟨hc, -, hi⟩ := h
    simp only [compile]
    cases hf : w.find? other source with
    | some result => rfl
    | none =>
      have made := @ih w other hi (by omega)
      generalize inner.compile source w = call at made
      obtain ⟨answer, after⟩ := call
      cases answer with
      | none => exact made
      | some result =>
        simp only [Workshop.find?_remember]
        rw [if_neg (by omega)]
        exact made

theorem compile_without (h : c.Numbered holds limit) (hl : limit ≤ cache) (source : Text) :
    c.compile source (w.without cache)
      = ((c.compile source w).1, (c.compile source w).2.without cache) := by
  induction c generalizing limit w with
  | standard | supplied => rfl
  | caching other inner ih =>
    obtain ⟨hc, -, hi⟩ := h
    have hne : other ≠ cache := by omega
    simp only [compile, Workshop.find?_without hne]
    cases hf : w.find? other source with
    | some result => rfl
    | none =>
      simp only [@ih w other hi (by omega)]
      generalize inner.compile source w = call
      obtain ⟨answer, after⟩ := call
      cases answer with
      | none => rfl
      | some result => simp only [Workshop.remember_without hne]

/-- After a call the cache has what the inner compiler makes of the source, and what it had of any
other. -/
theorem find?_caching (h : inner.Numbered holds cache) (hm : holds cache = inner.meaning)
    (hs : w.Sound holds) (hc : cache < w.made) (source text : Text) :
    ((caching cache inner).compile source w).2.find? cache text =
      if text = source then inner.meaning source else w.find? cache text := by
  simp only [compile]
  cases hf : w.find? cache source with
  | some result =>
    by_cases ht : text = source
    · rw [if_pos ht, ht, hf, ← hm, Workshop.find?_eq_some hs hf]
    · rw [if_neg ht]
  | none =>
    have made := compile_of_sound h hs (by omega) source
    have kept := find?_compile (w := w) h (Nat.le_refl cache) source text
    generalize inner.compile source w = call at made kept
    obtain ⟨answer, after⟩ := call
    obtain ⟨rfl, -⟩ := made
    cases hr : inner.meaning source with
    | none =>
      rw [hr] at kept
      by_cases ht : text = source
      · rw [if_pos ht]
        exact kept.trans (by rw [ht, hf])
      · rw [if_neg ht]
        exact kept
    | some result =>
      simp only [Workshop.find?_remember, true_and]
      by_cases ht : text = source
      · rw [if_pos ht, if_pos ht]
      · rw [if_neg ht, if_neg ht]
        exact kept

end

def compileAll (c : Compiler) : List Text → Build (List (Option Expression))
  | [], w => ([], w)
  | source :: rest, w =>
    let (answer, w) := c.compile source w
    let (answers, w) := compileAll c rest w
    (answer :: answers, w)

/-- The sources with which a caching compiler turns to its inner one, as its cache lacks them at the
time. -/
def passedOn (cache : Nat) (inner : Compiler) : List Text → Workshop → List Text
  | [], _ => []
  | source :: rest, w =>
    let later := passedOn cache inner rest ((caching cache inner).compile source w).2
    if (w.find? cache source).isSome then later else source :: later

theorem runs_supplied (f : Text → Option Expression) (sources : List Text) (w : Workshop) :
    ((supplied f).compileAll sources w).2.runs = sources.reverse ++ w.runs := by
  induction sources generalizing w with
  | nil => rfl
  | cons source rest ih =>
    change ((supplied f).compileAll rest (w.record source)).2.runs = _
    rw [ih, List.reverse_cons, List.append_assoc]
    rfl

section
variable {holds : Nat → Text → Option Expression} {c inner : Compiler} {w : Workshop}
  {limit cache : Nat}

theorem compileAll_of_sound (h : c.Numbered holds limit) (hs : w.Sound holds)
    (hl : limit ≤ w.made) (sources : List Text) :
    (c.compileAll sources w).1 = sources.map c.meaning := by
  induction sources generalizing w with
  | nil => rfl
  | cons source rest ih =>
    obtain ⟨ha, hs'⟩ := compile_of_sound h hs hl source
    change (c.compile source w).1 :: (c.compileAll rest (c.compile source w).2).1 = _
    rw [ha, ih hs' (by rwa [made_compile]), List.map_cons]

/-- But for its cache, a caching compiler does what its inner one does with the sources that are
passed on. -/
theorem compileAll_without (h : inner.Numbered holds cache) (sources : List Text) (w : Workshop) :
    ((caching cache inner).compileAll sources w).2.without cache
      = (inner.compileAll (passedOn cache inner sources w) (w.without cache)).2 := by
  induction sources generalizing w with
  | nil => rfl
  | cons source rest ih =>
    have later := ih ((caching cache inner).compile source w).2
    change ((caching cache inner).compileAll rest
      ((caching cache inner).compile source w).2).2.without cache = _
    rw [later, passedOn]
    simp only [compile]
    cases hf : w.find? cache source with
    | some result => rfl
    | none =>
      change _ = (inner.compileAll _ (inner.compile source (w.without cache)).2).2
      rw [compile_without h (Nat.le_refl cache)]
      generalize inner.compile source w = call
      obtain ⟨answer, after⟩ := call
      cases answer with
      | none => rfl
      | some result => simp only [Workshop.remember_without_self]

/-- A source that compiles is passed on once if the cache lacks it, and any other each time. -/
theorem count_passedOn (h : inner.Numbered holds cache) (hm : holds cache = inner.meaning)
    (hs : w.Sound holds) (hc : cache < w.made) (sources : List Text) (text : Text) :
    (passedOn cache inner sources w).count text =
      if (inner.meaning text).isSome then
        if text ∈ sources ∧ (w.find? cache text).isSome = false then 1 else 0
      else sources.count text := by
  induction sources generalizing w with
  | nil => simp [passedOn]
  | cons source rest ih =>
    have numbered : (caching cache inner).Numbered holds w.made := ⟨hc, hm, h⟩
    obtain ⟨-, hs'⟩ := compile_of_sound numbered hs (Nat.le_refl _) source
    have later := ih hs' (by rwa [made_compile])
    rw [find?_caching h hm hs hc] at later
    rw [passedOn]
    by_cases ht : text = source
    · subst ht
      rw [if_pos rfl] at later
      cases hf : w.find? cache text with
      | some result =>
        have hr : inner.meaning text = some result := by
          rw [← hm, Workshop.find?_eq_some hs hf]
        rw [hr] at later ⊢
        simpa using later
      | none =>
        rw [if_neg nofun, List.count_cons_self, later]
        cases inner.meaning text <;> simp
    · rw [if_neg ht] at later
      have hne : source ≠ text := Ne.symm ht
      have hmem : text ∈ source :: rest ↔ text ∈ rest := by simp [ht]
      rw [List.count_cons_of_ne hne]
      simp only [hmem]
      split
      · exact later
      · rw [List.count_cons_of_ne hne]
        exact later

end

/-- The compilers that a program holds and the workshop they are from.  A program takes standard and
supplied compilers, lays caches over those that it holds, makes routers and compiles. -/
inductive Made : List Compiler → Workshop → Prop
  | initial : Made [] .initial
  | standard {held : List Compiler} {w : Workshop} (h : Made held w) : Made (.standard :: held) w
  | supplied {held : List Compiler} {w : Workshop} (h : Made held w)
      (f : Text → Option Expression) : Made (.supplied f :: held) w
  | caching {held : List Compiler} {w : Workshop} {inner : Compiler} (h : Made held w)
      (hi : inner ∈ held) : Made ((cachingWith inner w).1 :: held) (cachingWith inner w).2
  | router {held : List Compiler} {w : Workshop} (h : Made held w) : Made held (Workshop.fresh w).2
  | compile {held : List Compiler} {w : Workshop} {c : Compiler} (h : Made held w) (hc : c ∈ held)
      (source : Text) : Made held (c.compile source w).2

def assign (holds : Nat → Text → Option Expression) (cache : Nat) (f : Text → Option Expression) :
    Nat → Text → Option Expression :=
  fun other => if other = cache then f else holds other

section
variable {holds : Nat → Text → Option Expression} {c inner : Compiler} {w : Workshop}

theorem assign_of_lt {cache other : Nat} (f : Text → Option Expression) (h : other < cache) :
    assign holds cache f other = holds other := if_neg (by omega)

theorem Numbered.assign (h : c.Numbered holds w.made) (f : Text → Option Expression) :
    c.Numbered (assign holds w.made f) w.made :=
  h.change (Nat.le_refl _) fun _ ho => assign_of_lt f ho

/-- A number that was not given out yet is free for a new cache. -/
theorem sound_assign (hs : w.Sound holds) (f : Text → Option Expression) :
    (Workshop.fresh w).2.Sound (assign holds w.made f) := by
  intro entry he
  obtain ⟨hl, hr⟩ := hs entry he
  refine ⟨Nat.lt_succ_of_lt hl, ?_⟩
  rw [assign_of_lt f hl, hr]

theorem numbered_cachingWith (h : inner.Numbered holds w.made) :
    (cachingWith inner w).1.Numbered (assign holds w.made inner.meaning) (w.made + 1) :=
  ⟨Nat.lt_succ_self _, if_pos rfl, h.assign inner.meaning⟩

theorem Made.sound {held : List Compiler} (h : Made held w) :
    ∃ holds, w.Sound holds ∧ ∀ c ∈ held, c.Numbered holds w.made := by
  induction h with
  | initial => exact ⟨fun _ _ => none, nofun, nofun⟩
  | standard h ih | supplied h f ih =>
    obtain ⟨holds, hs, hn⟩ := ih
    exact ⟨holds, hs, List.forall_mem_cons.2 ⟨trivial, hn⟩⟩
  | @caching held w inner h hi ih =>
    obtain ⟨holds, hs, hn⟩ := ih
    refine ⟨_, sound_assign hs inner.meaning,
      List.forall_mem_cons.2 ⟨numbered_cachingWith (hn inner hi), fun c hc => ?_⟩⟩
    exact ((hn c hc).assign inner.meaning).change (Nat.le_succ _) fun _ _ => rfl
  | router h ih =>
    obtain ⟨holds, hs, hn⟩ := ih
    refine ⟨holds, fun entry he => ⟨Nat.lt_succ_of_lt (hs entry he).1, (hs entry he).2⟩, ?_⟩
    exact fun c hc => (hn c hc).change (Nat.le_succ _) fun _ _ => rfl
  | compile h hc source ih =>
    obtain ⟨holds, hs, hn⟩ := ih
    obtain ⟨-, hs'⟩ := compile_of_sound (hn _ hc) hs (Nat.le_refl _) source
    refine ⟨holds, hs', ?_⟩
    rwa [made_compile]

end

/-- A new caching compiler answers every sequence of sources as its inner compiler does.  It turns to
that once for each source that compiles and each time for one that does not, and apart from its own
cache nothing else happens. -/
theorem caching_transparent {held : List Compiler} {w : Workshop} (made : Made held w)
    {inner : Compiler} (hi : inner ∈ held) (sources : List Text) :
    let result := fun source => (inner.compile source w).1
    let start := (cachingWith inner w).2
    let asked := passedOn w.made inner sources start
    let answered := (cachingWith inner w).1.compileAll sources start
    answered.1 = sources.map result ∧
    answered.1 = (inner.compileAll sources w).1 ∧
    (∀ source, asked.count source =
      if (result source).isSome then if source ∈ sources then 1 else 0
      else sources.count source) ∧
    answered.2.without w.made = (inner.compileAll asked start).2 ∧
    ∀ f, inner = supplied f → answered.2.runs = asked.reverse ++ w.runs := by
  intro result start asked answered
  obtain ⟨holds, sound, numbered⟩ := made.sound
  have hn := numbered inner hi
  have hresult : result = inner.meaning := by
    funext source
    exact (compile_of_sound hn sound (Nat.le_refl _) source).1
  have sound' : start.Sound (assign holds w.made inner.meaning) := sound_assign sound inner.meaning
  have hanswers : answered.1 = sources.map inner.meaning :=
    compileAll_of_sound (numbered_cachingWith hn) sound' (Nat.le_refl _) sources
  have hempty : start.without w.made = start := Workshop.fresh_without sound
  have hrest := compileAll_without (hn.assign inner.meaning) sources start
  rw [hempty] at hrest
  refine ⟨by rw [hanswers, hresult], ?_, fun source => ?_, hrest, ?_⟩
  · rw [hanswers, compileAll_of_sound hn sound (Nat.le_refl _)]
  · have hcount := count_passedOn (hn.assign inner.meaning) (if_pos rfl) sound'
      (Nat.lt_succ_self _) sources source
    have hfind : start.find? w.made source = none := by
      rw [← hempty, Workshop.find?_without_self]
    rw [hfind] at hcount
    simpa [hresult] using hcount
  · rintro f rfl
    have hruns := congrArg Workshop.runs hrest
    rw [runs_supplied] at hruns
    exact hruns

theorem repeated_transparent :
    let counted : Compiler := .supplied Expression.parse?
    let sources := ["a+", "(", "b", "a+", "(", "b"].map String.toList
    let cached := cachingWith counted .initial
    let answered := cached.1.compileAll sources cached.2
    Made [counted] .initial ∧ counted ∈ [counted] ∧
      answered.1 = sources.map Expression.parse? ∧
      answered.2.runs.reverse = ["a+", "(", "b", "("].map String.toList := by
  intro counted sources cached answered
  have made : Made [counted] .initial := .supplied .initial Expression.parse?
  have asked : passedOn 0 counted sources cached.2 = ["a+", "(", "b", "("].map String.toList := by
    decide +kernel
  obtain ⟨answers, -, -, -, runs⟩ := caching_transparent made List.mem_cons_self sources
  refine ⟨made, List.mem_cons_self, answers, ?_⟩
  rw [runs Expression.parse? rfl, List.reverse_append, List.reverse_reverse]
  exact asked

end Compiler
end HttpRouter
