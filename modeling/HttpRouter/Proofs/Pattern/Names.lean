import HttpRouter.Pattern.Basic
import HttpRouter.Proofs.Http.Bindings
import HttpRouter.Proofs.Pattern.Joining

set_option autoImplicit false

namespace HttpRouter

namespace Text

theorem exists_trimEnd (c : Char) (text : Text) :
    ∃ slashes, (∀ d ∈ slashes, d = c) ∧ text = trimEnd c text ++ slashes := by
  refine ⟨(text.reverse.takeWhile (· == c)).reverse, fun d hd => ?_, ?_⟩
  · rw [List.mem_reverse] at hd
    exact beq_iff_eq.1 (List.all_eq_true.1 List.all_takeWhile d hd)
  · rw [trimEnd, ← List.reverse_append, List.takeWhile_append_dropWhile, List.reverse_reverse]

end Text

namespace Template

def label (inside : Text) : Text := (Text.cut ':' inside).1

def labels (t : Template) : List Text := t.insides.map label

theorem labels_join (t u : Template) : (t.join u).labels = t.labels ++ u.labels := by
  rw [labels, insides_join, List.map_append]
  rfl

theorem readFrom_braceless {text : Text} (h : ∀ c ∈ text, c ≠ '\x7b' ∧ c ≠ '\x7d') (level : Nat)
    (literal held : Text) :
    readFrom level literal held text
      = if level = 0 then some ⟨[], held.reverse ++ text⟩ else none := by
  induction text generalizing held with
  | nil => cases level <;> simp [readFrom]
  | cons c rest ih =>
    obtain ⟨ho, hc⟩ := h c List.mem_cons_self
    have hr := fun held => ih (fun d hd => h d (List.mem_cons_of_mem c hd)) held
    cases level with
    | zero => simp [readFrom, ho, hc, hr]
    | succ level => simp [readFrom, ho, hc, hr]

/-- Text without braces at the end of a template has no part in its placeholders. -/
theorem insides_of_braceless {a b : Text} (hb : ∀ c ∈ b, c ≠ '\x7b' ∧ c ≠ '\x7d') {level : Nat}
    {literal held : Text} {t : Template} (h : readFrom level literal held (a ++ b) = some t) :
    ∃ u, readFrom level literal held a = some u ∧ u.insides = t.insides := by
  induction a generalizing level literal held t with
  | nil =>
    rw [List.nil_append, readFrom_braceless hb] at h
    cases level with
    | zero =>
      cases h
      exact ⟨_, rfl, rfl⟩
    | succ level => cases h
  | cons c rest ih =>
    cases level with
    | zero =>
      simp only [readFrom, List.cons_append] at h ⊢
      split at h
      · rename_i hc
        rw [if_pos hc]
        exact ih h
      · rename_i hc
        rw [if_neg hc]
        split at h
        · cases h
        · rename_i hd
          rw [if_neg hd]
          exact ih h
    | succ level =>
      simp only [readFrom, List.cons_append] at h ⊢
      split at h
      · rename_i hc
        rw [if_pos hc]
        exact ih h
      · rename_i hc
        rw [if_neg hc]
        split at h
        · rename_i hd
          rw [if_pos hd]
          cases level with
          | zero =>
            obtain ⟨t, ht, rfl⟩ := Option.map_eq_some_iff.1 h
            obtain ⟨u, hu, hi⟩ := ih ht
            refine ⟨_, Option.map_eq_some_iff.2 ⟨u, hu, rfl⟩, ?_⟩
            simpa [insides] using hi
          | succ outer => exact ih h
        · rename_i hd
          rw [if_neg hd]
          exact ih h

/-- The names of a template begin with those of the one before it, the slashes of which were left
off. -/
theorem labels_prefix_of_trimEnd {a b : Text} {t u : Template} (ht : read? a = some t)
    (hu : read? (Text.trimEnd '/' a ++ b) = some u) : t.labels <+: u.labels := by
  obtain ⟨slashes, hs, ha⟩ := Text.exists_trimEnd '/' a
  have hb : ∀ c ∈ slashes, c ≠ '\x7b' ∧ c ≠ '\x7d' := by
    intro c hc
    rw [hs c hc]
    decide
  rw [ha] at ht
  obtain ⟨v, hv, hi⟩ := insides_of_braceless hb ht
  have hj := read?_append hv b
  rw [hu, eq_comm, Option.map_eq_some_iff] at hj
  obtain ⟨w, -, rfl⟩ := hj
  rw [labels_join, labels, labels, ← hi]
  exact List.prefix_append _ _

theorem labels_of_trimEnd {a b : Text} {t u : Template} (ht : read? a = some t)
    (hu : read? (Text.trimEnd '/' a ++ b) = some u) : t.labels ⊆ u.labels :=
  (labels_prefix_of_trimEnd ht hu).subset

end Template

namespace Pattern

theorem name_ofPlaceholder (kind : Kind) (inside : Text) :
    (Variable.ofPlaceholder kind inside).name = Template.label inside := by
  unfold Variable.ofPlaceholder Template.label Text.cut
  cases Text.cut? ':' inside <;> rfl

theorem readVariables_names {template : Text} {kind : Kind} {seen insides : List Text}
    {vs : List Variable} (h : readVariables template kind seen insides = .ok vs) :
    vs.map (·.name) = insides.map Template.label ∧ (insides.map Template.label).Nodup ∧
      ∀ name ∈ insides.map Template.label, name ∉ seen := by
  induction insides generalizing seen vs with
  | nil =>
    cases h
    exact ⟨rfl, List.nodup_nil, nofun⟩
  | cons inside rest ih =>
    simp only [readVariables, name_ofPlaceholder] at h
    split at h
    · cases h
    · split at h
      · cases h
      · rename_i hs
        cases hr : readVariables template kind (Template.label inside :: seen) rest with
        | error e =>
          rw [hr] at h
          cases h
        | ok others =>
          rw [hr] at h
          cases h
          obtain ⟨hn, hd, hf⟩ := ih hr
          refine ⟨?_, ?_, ?_⟩
          · simp [hn, name_ofPlaceholder]
          · rw [List.map_cons, List.nodup_cons]
            exact ⟨fun hm => hf _ hm List.mem_cons_self, hd⟩
          · intro name hm
            rw [List.map_cons, List.mem_cons] at hm
            rcases hm with rfl | hm
            · simpa using hs
            · exact fun hc => hf name hm (List.mem_cons_of_mem _ hc)

def Labelled (p : Pattern) : Prop :=
  ∃ t, Template.read? p.template = some t ∧ p.names = t.labels ∧ p.names.Nodup

theorem names_of_plan {template : Text} {kind : Kind} {strict : Bool} {made : Plan}
    (h : plan template kind strict = .ok made) :
    ∃ t, Template.read? template = some t ∧ made.names = t.labels ∧ made.names.Nodup := by
  unfold plan at h
  split at h
  · cases h
  · rename_i t ht
    split at h
    · cases h
    · rename_i vs hv
      cases h
      obtain ⟨hn, hd, -⟩ := readVariables_names hv
      exact ⟨t, ht, hn, hn ▸ hd⟩

/-- Whatever the compiler makes of the planned expression, the rest of a pattern is planned. -/
theorem eq_of_compile {template : Text} {kind : Kind} {strict : Bool} {c : Compiler}
    {w after : Workshop} {p : Pattern} (h : compile template kind strict c w = (.ok p, after)) :
    ∃ made expression, plan template kind (strict && kind = .path) = .ok made ∧
      p = ⟨template, kind, expression, made.names, strict && kind = .path,
        kind = .host && !template.contains ':'⟩ := by
  unfold compile at h
  simp only at h
  split at h
  · cases h
  · rename_i made hm
    obtain ⟨ho, -⟩ := Prod.mk.inj h
    generalize (c.compile made.source w).1 = expression at ho
    cases expression with
    | none => cases ho
    | some expression =>
      rw [ofCompiled] at ho
      split at ho
      · cases ho
        exact ⟨made, expression, hm, rfl⟩
      · cases ho

theorem labelled_of_compile {template : Text} {kind : Kind} {strict : Bool} {c : Compiler}
    {w after : Workshop} {p : Pattern} (h : compile template kind strict c w = (.ok p, after)) :
    p.template = template ∧ p.kind = kind ∧ p.Labelled := by
  obtain ⟨made, expression, hm, rfl⟩ := eq_of_compile h
  exact ⟨rfl, rfl, names_of_plan hm⟩

theorem captures?_eq (p : Pattern) (text : Text) (vars : Vars) :
    p.captures? text vars = (p.bindings? text).map vars.insertAll := rfl

/-- Only names of the pattern are bound, in their order. -/
theorem sublist_of_bindings? {p : Pattern} {text : Text} {bindings : List (Text × Text)}
    (h : p.bindings? text = some bindings) : (bindings.map Prod.fst).Sublist p.names := by
  rw [bindings?, Option.map_eq_some_iff] at h
  obtain ⟨values, -, rfl⟩ := h
  generalize p.names = names
  induction names generalizing values with
  | nil => exact List.Sublist.refl _
  | cons name rest ih =>
    cases values with
    | nil => exact List.nil_sublist _
    | cons value values =>
      cases value with
      | none => exact (ih values).cons name
      | some value => exact (ih values).cons_cons name

end Pattern
end HttpRouter
