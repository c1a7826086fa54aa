import HttpRouter.Proofs.Pattern.Braces

set_option autoImplicit false

namespace HttpRouter

namespace Template

/-- A placeholder without a name, or with nothing behind the colon that ends its name. -/
def Hollow (inside : Text) : Prop := label inside = [] ∨ inside = label inside ++ [':']

instance (inside : Text) : Decidable (Hollow inside) :=
  inferInstanceAs (Decidable (label inside = [] ∨ inside = label inside ++ [':']))

structure Sound (insides : List Text) : Prop where
  filled : ∀ inside ∈ insides, ¬ Hollow inside
  distinct : (insides.map label).Nodup

/-- The error of the leftmost placeholder that is hollow or has the name of an earlier one. -/
inductive FirstFault (template : Text) : List Text → Error → Prop
  | hollow {before : List Text} {inside : Text} (hb : Sound before) (hi : Hollow inside)
      (later : List Text) : FirstFault template (before ++ inside :: later)
        (.missingNameOrPattern template (brace inside))
  | repeated {before : List Text} {inside : Text} (hb : Sound before) (hi : ¬ Hollow inside)
      (hr : label inside ∈ before.map label) (later : List Text) :
      FirstFault template (before ++ inside :: later)
        (.duplicateVariable template (label inside))

theorem FirstFault.ne_unbalanced {template : Text} {insides : List Text} {e : Error}
    (h : FirstFault template insides e) (text : Text) : e ≠ .unbalancedBraces text := by
  cases h <;> nofun

theorem Sound.concat {before : List Text} {inside : Text} (h : Sound before)
    (hi : ¬ Hollow inside) (hn : label inside ∉ before.map label) : Sound (before ++ [inside]) := by
  constructor
  · intro other ho
    rcases List.mem_append.1 ho with ho | ho
    · exact h.filled other ho
    · rwa [List.mem_singleton.1 ho]
  · rw [List.map_append, List.map_singleton, List.nodup_append]
    refine ⟨h.distinct, by simp, fun name hm other ho he => hn ?_⟩
    rwa [← List.mem_singleton.1 ho, ← he]

theorem sound_of_no_fault {template : Text} {insides : List Text}
    (h : ∀ e, ¬ FirstFault template insides e) : Sound insides := by
  -- From left to right: behind sound placeholders the next one has no fault.
  have hfrom : ∀ before later, insides = before ++ later → Sound before → Sound insides := by
    intro before later
    induction later generalizing before with
    | nil =>
      rintro rfl hb
      rwa [List.append_nil]
    | cons inside later ih =>
      rintro rfl hb
      by_cases hi : Hollow inside
      · exact absurd (.hollow hb hi later) (h _)
      by_cases hr : label inside ∈ before.map label
      · exact absurd (.repeated hb hi hr later) (h _)
      · exact ih (before ++ [inside]) (by simp) (hb.concat hi hr)
  exact hfrom [] insides rfl ⟨nofun, List.nodup_nil⟩

end Template
namespace Pattern

variable {template : Text} {kind : Kind}

theorem hollow_iff (kind : Kind) (inside : Text) :
    ((Variable.ofPlaceholder kind inside).name.isEmpty
        || (Variable.ofPlaceholder kind inside).constraint.isEmpty) = true ↔
      Template.Hollow inside := by
  unfold Variable.ofPlaceholder Template.Hollow Template.label Text.cut
  cases hc : Text.cut? ':' inside with
  | none =>
    have hd : kind.defaultConstraint.isEmpty = false := by cases kind <;> rfl
    simp [hd]
  | some parts =>
    obtain ⟨name, constraint⟩ := parts
    obtain rfl := Text.eq_of_cut? hc
    simp

theorem readVariables_cons_of_filled {inside : Text} (h : ¬ Template.Hollow inside)
    (seen rest : List Text) :
    readVariables template kind seen (inside :: rest) =
      if Template.label inside ∈ seen then
        .error (.duplicateVariable template (Template.label inside))
      else (readVariables template kind (Template.label inside :: seen) rest).map
        (Variable.ofPlaceholder kind inside :: ·) := by
  rw [← hollow_iff kind] at h
  simp only [readVariables, if_neg h]
  simp only [name_ofPlaceholder, List.contains_iff_mem]

theorem readVariables_cons_of_hollow {inside : Text} (h : Template.Hollow inside)
    (seen rest : List Text) :
    readVariables template kind seen (inside :: rest)
      = .error (.missingNameOrPattern template (Template.brace inside)) :=
  if_pos ((hollow_iff kind inside).2 h)

/-- Behind sound placeholders, their names have been seen. -/
theorem readVariables_append (template : Text) (kind : Kind) {before : List Text}
    (seen : List Text) (h : Template.Sound before)
    (hs : ∀ name ∈ before.map Template.label, name ∉ seen) :
    ∃ vs, ∀ rest, readVariables template kind seen (before ++ rest)
      = (readVariables template kind ((before.map Template.label).reverse ++ seen) rest).map
          (vs ++ ·) := by
  induction before generalizing seen with
  | nil =>
    refine ⟨[], fun rest => ?_⟩
    simp only [List.nil_append, List.map_nil, List.reverse_nil]
    cases readVariables template kind seen rest <;> rfl
  | cons inside before ih =>
    obtain ⟨hname, hd⟩ := List.nodup_cons.1 h.distinct
    obtain ⟨hnew, hs⟩ := List.forall_mem_cons.1 hs
    have hseen : ∀ name ∈ before.map Template.label, name ∉ Template.label inside :: seen := by
      intro name hn
      rw [List.mem_cons, not_or]
      exact ⟨fun he => hname (he ▸ hn), hs name hn⟩
    obtain ⟨vs, hvs⟩ := ih _ ⟨fun other ho => h.filled other (List.mem_cons_of_mem _ ho), hd⟩ hseen
    refine ⟨Variable.ofPlaceholder kind inside :: vs, fun rest => ?_⟩
    rw [List.cons_append, readVariables_cons_of_filled (h.filled inside List.mem_cons_self),
      if_neg hnew, hvs, List.map_cons, List.reverse_cons, List.append_assoc,
      List.singleton_append]
    cases readVariables template kind _ rest <;> rfl

theorem readVariables_of_sound (template : Text) (kind : Kind) {insides : List Text}
    (h : Template.Sound insides) :
    ∃ vs, readVariables template kind [] insides = .ok vs ∧
      vs.map (·.name) = insides.map Template.label := by
  obtain ⟨vs, hvs⟩ := readVariables_append template kind [] h nofun
  have hok := hvs []
  rw [List.append_nil] at hok
  exact ⟨_, hok, (readVariables_names hok).1⟩

theorem readVariables_of_fault {insides : List Text} {e : Error}
    (h : Template.FirstFault template insides e) :
    readVariables template kind [] insides = .error e := by
  cases h with
  | @hollow before inside hb hi later =>
    obtain ⟨vs, hvs⟩ := readVariables_append template kind [] hb nofun
    rw [hvs, readVariables_cons_of_hollow hi]
    rfl
  | @repeated before inside hb hi hr later =>
    obtain ⟨vs, hvs⟩ := readVariables_append template kind [] hb nofun
    rw [hvs, readVariables_cons_of_filled hi, if_pos (by simpa using hr)]
    rfl

section
variable {strict : Bool} {t : Template}

theorem plan_of_unbalanced (h : ¬ template.Balanced) :
    plan template kind strict = .error (.unbalancedBraces template) := by
  rw [plan, Template.read?_eq_none_iff.2 h]

theorem plan_eq (ht : Template.read? template = some t) :
    plan template kind strict = (readVariables template kind [] t.insides).map fun vs =>
      ⟨source template kind strict t vs, vs.map (·.name)⟩ := by
  simp only [plan, ht, Template.insides]
  cases readVariables template kind [] (t.holes.map (·.2)) <;> rfl

theorem plan_of_fault (ht : Template.read? template = some t) {e : Error}
    (h : Template.FirstFault template t.insides e) : plan template kind strict = .error e := by
  rw [plan_eq ht, readVariables_of_fault h]
  rfl

theorem plan_of_sound (ht : Template.read? template = some t) (h : Template.Sound t.insides) :
    ∃ source, plan template kind strict = .ok ⟨source, t.labels⟩ := by
  obtain ⟨vs, hv, hn⟩ := readVariables_of_sound template kind h
  refine ⟨source template kind strict t vs, ?_⟩
  rw [plan_eq ht, hv, Template.labels, ← hn]
  rfl

end

section
variable {strictSlash : Bool} (compiler : Compiler) (w : Workshop)

theorem compile_of_error {e : Error}
    (h : plan template kind (strictSlash && kind = .path) = .error e) :
    compile template kind strictSlash compiler w = (.error e, w) := by
  simp only [compile, h]

theorem compile_of_plan {made : Plan}
    (h : plan template kind (strictSlash && kind = .path) = .ok made) :
    compile template kind strictSlash compiler w
      = (ofCompiled template kind (strictSlash && kind = .path) made
          (compiler.compile made.source w).1, (compiler.compile made.source w).2) := by
  simp only [compile, h]
  rfl

/-- Balanced braces are never complained about. -/
theorem compile_ne_unbalanced (h : template.Balanced) (text : Text) :
    (compile template kind strictSlash compiler w).1 ≠ .error (.unbalancedBraces text) := by
  obtain ⟨t, ht⟩ := Option.ne_none_iff_exists'.1 (mt Template.read?_eq_none_iff.1 (not_not.2 h))
  by_cases hf : ∃ e, Template.FirstFault template t.insides e
  · obtain ⟨e, he⟩ := hf
    rw [compile_of_error compiler w (plan_of_fault ht he)]
    rintro h
    cases h
    exact he.ne_unbalanced text rfl
  · obtain ⟨source, hs⟩ := plan_of_sound ht (Template.sound_of_no_fault (not_exists.1 hf))
    rw [compile_of_plan compiler w hs]
    unfold ofCompiled
    split
    · nofun
    · split <;> nofun

end

/-- The braces are looked at first, then the placeholders from left to right, and the compiler is
run last, once, and only if nothing was wrong so far. -/
theorem compile_reports (template : Text) (kind : Kind) (strictSlash : Bool) :
    (∀ compiler w,
      ((∃ text, (compile template kind strictSlash compiler w).1
        = .error (.unbalancedBraces text)) ↔ ¬ template.Balanced) ∧
      (¬ template.Balanced → compile template kind strictSlash compiler w
        = (.error (.unbalancedBraces template), w))) ∧
    (template.Balanced → ∃ t : Template, t.Proper ∧ t.text = template ∧
      (∀ e, Template.FirstFault template t.insides e →
        ∀ compiler w, compile template kind strictSlash compiler w = (.error e, w)) ∧
      ((∀ e, ¬ Template.FirstFault template t.insides e) → ∃ source, ∀ compiler w,
        let answer := (compiler.compile source w).1
        let result := compile template kind strictSlash compiler w
        result.2 = (compiler.compile source w).2 ∧
        (∀ f, compiler = .supplied f → result.2.runs = source :: w.runs) ∧
        (answer = none → result.1 = .error (.invalidRegex template)) ∧
        (∀ expression, answer = some expression →
          (expression.groupCount ≠ t.insides.length →
            result.1 = .error (.captureGroupInConstraint template)) ∧
          (expression.groupCount = t.insides.length → ∃ p, result.1 = .ok p ∧
            p.template = template ∧ p.kind = kind ∧ p.expression = expression ∧
            p.names = t.labels)))) := by
  refine ⟨fun compiler w => ?_, fun hb => ?_⟩
  · by_cases hb : template.Balanced
    · exact ⟨iff_of_false (fun ⟨text, h⟩ => compile_ne_unbalanced compiler w hb text h)
        (not_not.2 hb), fun h => absurd hb h⟩
    · have hc : compile template kind strictSlash compiler w = _ :=
        compile_of_error compiler w (plan_of_unbalanced hb)
      exact ⟨iff_of_true ⟨template, congrArg Prod.fst hc⟩ hb, fun _ => hc⟩
  · obtain ⟨t, ht⟩ := Option.ne_none_iff_exists'.1 (mt Template.read?_eq_none_iff.1 (not_not.2 hb))
    obtain ⟨hp, htext⟩ := Template.read?_eq_some_iff.1 ht
    refine ⟨t, hp, htext, fun e he compiler w => compile_of_error compiler w (plan_of_fault ht he),
      fun hf => ?_⟩
    obtain ⟨source, hs⟩ := plan_of_sound ht (Template.sound_of_no_fault hf)
    have hlength : t.labels.length = t.insides.length := List.length_map _
    refine ⟨source, fun compiler w => ?_⟩
    intro answer result
    have hr : result = (ofCompiled template kind (strictSlash && kind = .path)
        ⟨source, t.labels⟩ answer, (compiler.compile source w).2) := compile_of_plan compiler w hs
    rw [hr]
    refine ⟨rfl, ?_, fun ha => ?_, fun expression ha => ⟨fun hn => ?_, fun hn => ?_⟩⟩
    · rintro f rfl
      rfl
    · rw [ha]
      rfl
    · rw [ha]
      exact if_neg (hlength.symm ▸ hn)
    · rw [ha, ofCompiled, if_pos (hn.trans hlength.symm)]
      exact ⟨_, rfl, rfl, rfl, rfl, rfl⟩

/-- A name that is there twice comes before a placeholder without one here, and after it there. -/
example :
    ["\x7ba\x7d\x7ba\x7d\x7b\x7d", "\x7b\x7d\x7ba\x7d\x7ba\x7d"].map
        (fun text => (compile text.toList .host false .standard .initial).1)
      = [.error (.duplicateVariable "\x7ba\x7d\x7ba\x7d\x7b\x7d".toList ['a']),
        .error (.missingNameOrPattern "\x7b\x7d\x7ba\x7d\x7ba\x7d".toList "\x7b\x7d".toList)] :=
  rfl

end Pattern
end HttpRouter
