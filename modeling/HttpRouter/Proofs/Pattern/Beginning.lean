import HttpRouter.Pattern.Basic
import HttpRouter.Proofs.Pattern.Joining

set_option autoImplicit false

namespace HttpRouter

namespace Template

def unconstrained (template : Text) : Bool :=
  (read? template).all fun t => t.insides.all fun inside => !inside.contains ':'

theorem unconstrained_append {a b : Text} {t : Template} (ht : read? a = some t)
    (ha : unconstrained a = true) (hb : unconstrained b = true) :
    unconstrained (a ++ b) = true := by
  unfold unconstrained at ha hb ⊢
  rw [ht, Option.all_some] at ha
  rw [read?_append ht]
  cases hu : read? b with
  | none => rfl
  | some u =>
    rw [hu, Option.all_some] at hb
    rw [Option.map_some, Option.all_some, insides_join, List.all_append, ha, hb]
    rfl

end Template

namespace Pattern

open Regex (Atom)

def compiled (template : Text) (kind : Kind) (strict : Bool) : Except Error Pattern :=
  match plan template kind (strict && kind = .path) with
  | .error e => .error e
  | .ok plan =>
    ofCompiled template kind (strict && kind = .path) plan (Expression.parse? plan.source)

theorem compile_standard (template : Text) (kind : Kind) (strict : Bool) (w : Workshop) :
    compile template kind strict .standard w = (compiled template kind strict, w) := by
  simp only [compile, compiled]
  cases plan template kind (strict && kind = .path) <;> rfl

theorem compiled_eq_ok {template : Text} {kind : Kind} {strict : Bool} {p : Pattern}
    (h : compiled template kind strict = .ok p) :
    ∃ source regex, plan template kind (strict && kind = .path) = .ok ⟨source, p.names⟩ ∧
      Regex.parse? source = some regex ∧
      p = ⟨template, kind, ⟨source, regex⟩, p.names, strict && kind = .path,
        kind = .host && !template.contains ':'⟩ := by
  unfold compiled at h
  cases hp : plan template kind (strict && kind = .path) with
  | error e =>
    rw [hp] at h
    cases h
  | ok made =>
    rw [hp] at h
    simp only [Expression.parse?] at h
    cases hr : Regex.parse? made.source with
    | none =>
      rw [hr] at h
      cases h
    | some regex =>
      rw [hr] at h
      simp only [Option.map_some, ofCompiled] at h
      split at h
      · cases h
        exact ⟨made.source, regex, rfl, hr, rfl⟩
      · cases h

theorem kind_of_compiled {template : Text} {kind : Kind} {strict : Bool} {p : Pattern}
    (h : compiled template kind strict = .ok p) : p.kind = kind := by
  obtain ⟨source, regex, -, -, hp⟩ := compiled_eq_ok h
  rw [hp]

theorem readVariables_unconstrained {template : Text} {kind : Kind} {seen insides : List Text}
    {vs : List Variable} (hf : ∀ inside ∈ insides, ':' ∉ inside)
    (h : readVariables template kind seen insides = .ok vs) :
    vs = insides.map (⟨·, kind.defaultConstraint⟩) := by
  induction insides generalizing seen vs with
  | nil => cases h; rfl
  | cons inside rest ih =>
    have hv : Variable.ofPlaceholder kind inside = ⟨inside, kind.defaultConstraint⟩ := by
      have hc : Text.cut? ':' inside = none := by
        cases hc : Text.cut? ':' inside with
        | none => rfl
        | some parts =>
          refine absurd ?_ (hf inside List.mem_cons_self)
          rw [Text.eq_of_cut? hc]
          simp
      rw [Variable.ofPlaceholder, hc]
    simp only [readVariables, hv] at h
    split at h
    · cases h
    · split at h
      · cases h
      · cases hr : readVariables template kind (inside :: seen) rest with
        | error e => rw [hr] at h; cases h
        | ok others =>
          rw [hr] at h
          cases h
          rw [ih (fun other ho => hf other (List.mem_cons_of_mem _ ho)) hr]
          rfl

theorem escape_eq_spell (text : Text) :
    Regex.escape text = (text.map Atom.char).flatMap Atom.spell := by
  rw [List.flatMap_map]
  change Regex.escape text = text.flatMap fun c => Regex.escape [c]
  simp [Regex.escape]

/-- The groups of placeholders without constraints are written in the style of the kind. -/
theorem groups_unconstrained {kind : Kind} {style : Regex.Style}
    (hd : '(' :: (kind.defaultConstraint ++ [')']) = style.spell .gap)
    (holes : List (Text × Text)) :
    groups (holes.map (·.1)) ((holes.map (·.2)).map (⟨·, kind.defaultConstraint⟩))
      = (holes.flatMap fun (literal, _) => literal.map Atom.char ++ [.gap]).flatMap
          style.spell := by
  induction holes with
  | nil => rfl
  | cons hole rest ih =>
    have he : (hole.1.map Atom.char).flatMap style.spell = Regex.escape hole.1 := by
      rw [escape_eq_spell, List.flatMap_map, List.flatMap_map]
      rfl
    simp only [groups, List.map_cons, List.zip_cons_cons, List.flatMap_cons] at ih ⊢
    rw [ih, hd, List.flatMap_append, List.flatMap_append, he, List.flatMap_singleton]

/-- The source of a path template is the spelling of its parts between anchors. -/
theorem source_eq (template : Text) {kind : Kind} (hk : kind = .path ∨ kind = .pathStart)
    (strict : Bool) (t : Template) :
    source template kind strict t (t.insides.map (⟨·, kind.defaultConstraint⟩))
      = '^' :: ((t.trimmed strict).atoms.flatMap Atom.spell
          ++ Regex.closing strict (kind = .path)) := by
  have hh : kind ≠ .host := by rcases hk with rfl | rfl <;> decide
  have he : ending template kind strict = Regex.closing strict (kind = .path) := by
    rcases hk with rfl | rfl <;> simp [ending, Regex.closing]
  have ht : (t.trimmed strict).atoms
      = (t.holes.flatMap fun (literal, _) => literal.map Atom.char ++ [.gap])
        ++ (if strict then Text.dropLastIf '/' t.tail else t.tail).map Atom.char := by
    cases strict <;> rfl
  have hd : '(' :: (kind.defaultConstraint ++ [')']) = Regex.Style.path.spell .gap := by
    rcases hk with rfl | rfl <;> rfl
  have hg := groups_unconstrained hd t.holes
  rw [Regex.Style.spell_path] at hg
  simp only [source, if_neg hh, List.nil_append]
  rw [he, ht, List.flatMap_append, ← escape_eq_spell, ← hg]
  rfl

structure Form (template : Text) (kind : Kind) (strict : Bool) (p : Pattern) (t : Template) :
    Prop where
  read : Template.read? template = some t
  names : p.names = t.insides
  subject : ∀ text, p.subject text = text
  regex : p.expression.regex
    = .anchored (t.trimmed strict).atoms (Regex.closingParts strict (kind = .path))

theorem exists_form {template : Text} {kind : Kind} {strict : Bool} {p : Pattern}
    (hk : kind = .path ∨ kind = .pathStart) (hf : Template.unconstrained template = true)
    (h : compiled template kind strict = .ok p) :
    ∃ t, Form template kind (strict && kind = .path) p t := by
  obtain ⟨src, regex, hp, hr, he⟩ := compiled_eq_ok h
  unfold plan at hp
  cases ht : Template.read? template with
  | none =>
    rw [ht] at hp
    cases hp
  | some t =>
    have hi : ∀ inside ∈ t.insides, ':' ∉ inside := by
      simpa [Template.unconstrained, ht] using hf
    rw [ht] at hp
    cases hv : readVariables template kind [] (t.holes.map (·.2)) with
    | error e =>
      simp only [hv] at hp
      cases hp
    | ok vs =>
      obtain rfl := readVariables_unconstrained hi hv
      simp only [hv, Except.ok.injEq, Plan.mk.injEq] at hp
      obtain ⟨rfl, hn⟩ := hp
      have hs := source_eq template hk (strict && kind = .path) t
      have hx := Regex.parse?_anchored (hs ▸ hr)
      refine ⟨t, ht, ?_, ?_, ?_⟩
      · rw [← hn, Template.insides]
        simp
      · intro text
        rw [he]
        rcases hk with rfl | rfl <;> rfl
      · rw [he]
        exact hx

theorem isSome_bindings? (p : Pattern) (text : Text) :
    (p.bindings? text).isSome = (p.expression.regex.search 0 none (p.subject text)).isSome := by
  simp [bindings?, Expression.groups?, Regex.captures?]

theorem map_fst_bound {names : List Text} {values : List (Option Text)}
    (hl : names.length = values.length) (hv : ∀ value ∈ values, value.isSome = true) :
    ((names.zip values).filterMap fun (name, value) => value.map (name, ·)).map Prod.fst
      = names := by
  induction names generalizing values with
  | nil => rfl
  | cons name rest ih =>
    cases values with
    | nil => cases hl
    | cons value others =>
      obtain ⟨v, rfl⟩ := Option.isSome_iff_exists.1 (hv value List.mem_cons_self)
      have ho := ih (Nat.succ.inj hl) fun value h => hv value (List.mem_cons_of_mem _ h)
      simpa using ho

theorem names_of_bindings? {template : Text} {kind : Kind} {strict : Bool} {p : Pattern}
    {t : Template} (h : Form template kind strict p t) {text : Text} {bs : List (Text × Text)}
    (hb : p.bindings? text = some bs) : bs.map Prod.fst = p.names := by
  simp only [bindings?, Expression.groups?, Regex.captures?, Option.map_map,
    Option.map_eq_some_iff] at hb
  obtain ⟨state, hs, rfl⟩ := hb
  apply map_fst_bound
  · simp
  · intro value hv
    obtain ⟨i, hi, rfl⟩ := List.mem_map.1 hv
    obtain ⟨s, hm⟩ := Regex.mem_run_of_search hs
    have hc : i + 1 ∈ state.closed := by
      have hst : p.expression.regex.Straight 0 := by
        rw [h.regex]
        exact Regex.anchored_straight _ (Nat.zero_le 1)
          fun r hr => Regex.straight_of_mem_closingParts hr
      refine Regex.closed_of_mem_run hst hm (i + 1) (List.mem_append_left _ ?_)
      rw [h.names, List.mem_range] at hi
      rw [h.regex, Regex.indices_anchored, Template.gaps_atoms, Template.insides_trimmed,
        List.mem_range'_1]
      omega
    obtain ⟨span, hspan, he⟩ := List.mem_map.1 hc
    simp only [Regex.groupText?, Option.isSome_map, List.find?_isSome]
    exact ⟨span, hspan, by simp [he]⟩

/-- Where the pattern of a path matches, the pattern for a beginning of its template does. -/
theorem isSome_of_beginning {a b : Text} {p q : Pattern} {t u : Template} {strict : Bool}
    (hs : Text.endsWith a '/' = false) (hp : Form a .pathStart false p t)
    (hq : Form (a ++ b) .path strict q u) {text : Text} (h : (q.bindings? text).isSome = true) :
    (p.bindings? text).isSome = true := by
  have hj := Template.read?_append hp.read b
  rw [hq.read, eq_comm, Option.map_eq_some_iff] at hj
  obtain ⟨v, -, rfl⟩ := hj
  obtain ⟨back, hback⟩ := Template.prefix_trimmed hp.read hs v strict
  rw [isSome_bindings?, hp.subject, hp.regex]
  rw [isSome_bindings?, hq.subject, hq.regex, ← hback] at h
  exact Regex.search_isSome (fun s => Regex.run_anchored_ne_nil) 0 none text h

theorem names_of_beginning {a b : Text} {p q : Pattern} {t u : Template} {kind other : Kind}
    {strict loose : Bool} (hp : Form a kind strict p t) (hq : Form (a ++ b) other loose q u) :
    p.names ⊆ q.names := by
  have hj := Template.read?_append hp.read b
  rw [hq.read, eq_comm, Option.map_eq_some_iff] at hj
  obtain ⟨v, -, rfl⟩ := hj
  rw [hp.names, hq.names, Template.insides_join]
  exact List.subset_append_left _ _

end Pattern
end HttpRouter
