import HttpRouter.Proofs.Pattern.Language
import HttpRouter.Proofs.Pattern.Ports
import HttpRouter.Proofs.Regex.Caseless

set_option autoImplicit false

namespace HttpRouter

open Regex (Atom Style closes hostKey exchange)

namespace Template

def mapChars (f : Char → Char) (t : Template) : Template :=
  ⟨t.holes.map fun (literal, inside) => (literal.map f, inside), t.tail.map f⟩

/-- The template becomes the host with these values, which are not empty and have no dot, if its
literal text is written in some case. -/
structure Spells (t : Template) (values : List Text) (host : Text) : Prop where
  count : values.length = t.holes.length
  proper : ∀ value ∈ values, value ≠ [] ∧ '.' ∉ value
  filled : ∃ u : Template, u.mapChars Unicode.fold = t.mapChars Unicode.fold ∧
    u.fill values = host

theorem mapChars_mapChars (f g : Char → Char) (t : Template) :
    (t.mapChars f).mapChars g = t.mapChars (g ∘ f) := by
  simp [mapChars, Function.comp_def]

theorem mapChars_hostKey {t u : Template} :
    u.mapChars hostKey = t.mapChars hostKey ↔
      u.mapChars Unicode.fold = t.mapChars Unicode.fold := by
  have he : exchange ∘ hostKey = Unicode.fold := funext fun c => Regex.exchange_exchange _
  constructor
  · intro h
    rw [← he, ← mapChars_mapChars, h, mapChars_mapChars]
  · intro h
    have hk : hostKey = exchange ∘ Unicode.fold := rfl
    rw [hk, ← mapChars_mapChars, h, mapChars_mapChars]

theorem atoms_mapChars (f : Char → Char) (t : Template) :
    (t.mapChars f).atoms = t.atoms.map (Atom.rename f) := by
  simp [mapChars, atoms, Atom.rename, List.flatMap_map, List.map_flatMap, Function.comp_def]

theorem fill_cons (hole : Text × Text) (holes : List (Text × Text)) (tail value : Text)
    (values : List Text) :
    (mk (hole :: holes) tail).fill (value :: values)
      = hole.1 ++ (value ++ (mk holes tail).fill values) := by
  simp [fill]

theorem fill_eq {t : Template} {values : List Text} (h : values.length = t.holes.length) :
    t.fill values = Atom.fill t.atoms values := by
  have chars : ∀ (front : Text) (atoms : List Atom) (values : List Text),
      Atom.fill (front.map Atom.char ++ atoms) values = front ++ Atom.fill atoms values := by
    intro front atoms values
    induction front with
    | nil => rfl
    | cons c front ih => exact congrArg (c :: ·) ih
  obtain ⟨holes, tail⟩ := t
  induction holes generalizing values with
  | nil =>
    have ha : (mk [] tail).atoms = tail.map Atom.char ++ [] := by simp [atoms]
    obtain rfl := List.length_eq_zero_iff.1 h
    rw [ha, chars]
    exact (List.append_nil tail).symm
  | cons hole holes ih =>
    cases values with
    | nil => cases h
    | cons value values =>
      rw [fill_cons, atoms_cons, chars, Atom.fill, ih (Nat.succ.inj h)]

theorem fill_mapChars (f : Char → Char) (t : Template) (values : List Text) :
    (t.mapChars f).fill (values.map (List.map f)) = (t.fill values).map f := by
  simp [mapChars, fill, List.zip_map, List.flatMap_map, List.map_flatMap]

/-- Where new characters are written, there is a way to have written the old ones. -/
theorem exists_fill {f : Char → Char} {t : Template} {others : List Text} {text : Text}
    (hc : others.length = t.holes.length) (h : (t.mapChars f).fill others = text.map f) :
    ∃ (u : Template) (values : List Text), u.mapChars f = t.mapChars f ∧
      others = values.map (List.map f) ∧ u.fill values = text := by
  obtain ⟨holes, tail⟩ := t
  induction holes generalizing others text with
  | nil =>
    obtain rfl := List.length_eq_zero_iff.1 hc
    have ht : tail.map f = text.map f := h
    exact ⟨⟨[], text⟩, [], by simp [mapChars, ht], rfl, rfl⟩
  | cons hole holes ih =>
    cases others with
    | nil => cases hc
    | cons other others =>
      have hm : (mk (hole :: holes) tail).mapChars f
          = mk ((hole.1.map f, hole.2) :: ((mk holes tail).mapChars f).holes)
              ((mk holes tail).mapChars f).tail := rfl
      rw [hm, fill_cons] at h
      obtain ⟨literal, rest, rfl, hl, hr⟩ := List.map_eq_append_iff.1 h.symm
      obtain ⟨value, after, rfl, hv, ha⟩ := List.map_eq_append_iff.1 hr
      obtain ⟨u, values, hu, rfl, rfl⟩ := ih (Nat.succ.inj hc) ha.symm
      refine ⟨⟨(literal, hole.2) :: u.holes, u.tail⟩, value :: values, ?_, by simp [hv], ?_⟩
      · have hl : literal.map f = hole.1.map f := hl
        rw [hm, ← hu, ← hl]
        rfl
      · rw [fill_cons]

/-- To spell a host is to write it after dots and slashes are exchanged and letters folded. -/
theorem writes_hostKey {t : Template} {others : List Text} {host : Text} :
    (t.mapChars hostKey).Writes others (host.map hostKey) ↔
      ∃ values, others = values.map (List.map hostKey) ∧ t.Spells values host := by
  have hlen : (t.mapChars hostKey).holes.length = t.holes.length := List.length_map _
  have hproper : ∀ value : Text, value.map hostKey ≠ [] ∧ '/' ∉ value.map hostKey ↔
      value ≠ [] ∧ '.' ∉ value := by
    intro value
    simp [Regex.hostKey_eq_slash]
  constructor
  · rintro ⟨hc, hp, hf⟩
    rw [hlen] at hc
    obtain ⟨u, values, hu, rfl, hfill⟩ := exists_fill hc hf
    refine ⟨values, rfl, ⟨by simpa using hc, fun value hv => ?_, u, mapChars_hostKey.1 hu, hfill⟩⟩
    exact (hproper value).1 (hp _ (List.mem_map_of_mem hv))
  · rintro ⟨values, rfl, hc, hp, u, hu, rfl⟩
    refine ⟨by rw [List.length_map, hlen, hc], fun other ho => ?_, ?_⟩
    · obtain ⟨value, hv, rfl⟩ := List.mem_map.1 ho
      exact (hproper value).2 (hp value hv)
    · rw [← mapChars_hostKey.2 hu, fill_mapChars]

end Template

namespace Pattern

structure HostForm (template : Text) (p : Pattern) (t : Template) : Prop where
  read : Template.read? template = some t
  names : p.names = t.insides
  subject : ∀ text, p.subject text = withoutPort text
  regex : p.expression.regex
    = .sequence (.look .start :: (Style.host.regexes 0 t.atoms ++ [.look .finish]))

theorem source_host (template : Text) (t : Template) :
    source template .host false t (t.insides.map (⟨·, Kind.host.defaultConstraint⟩))
      = '^' :: ("(?i)".toList ++ (t.atoms.flatMap Style.host.spell ++ ['$'])) := by
  have hd : '(' :: (Kind.host.defaultConstraint ++ [')']) = Style.host.spell .gap := rfl
  have hg := groups_unconstrained hd t.holes
  have htail : (t.tail.map Atom.char).flatMap Style.host.spell = Regex.escape t.tail := by
    rw [escape_eq_spell, List.flatMap_map, List.flatMap_map]
    rfl
  rw [Template.atoms, List.flatMap_append, htail, ← hg]
  simp [source, ending, Template.insides]

theorem exists_hostForm {template : Text} {strict : Bool} {p : Pattern} (hf : ':' ∉ template)
    (h : compiled template .host strict = .ok p) : ∃ t, HostForm template p t := by
  have hstrict : (strict && decide (Kind.host = .path)) = false := Bool.and_false strict
  obtain ⟨src, regex, hp, hr, he⟩ := compiled_eq_ok h
  rw [hstrict] at hp he
  unfold plan at hp
  cases ht : Template.read? template with
  | none =>
    rw [ht] at hp
    cases hp
  | some t =>
    have hi : ∀ inside ∈ t.insides, ':' ∉ inside := by
      simpa [Template.unconstrained, ht] using Template.unconstrained_of_not_mem hf
    rw [ht] at hp
    cases hv : readVariables template .host [] (t.holes.map (·.2)) with
    | error e =>
      simp only [hv] at hp
      cases hp
    | ok vs =>
      obtain rfl := readVariables_unconstrained hi hv
      simp only [hv, Except.ok.injEq, Plan.mk.injEq] at hp
      obtain ⟨rfl, hn⟩ := hp
      have hx := Regex.parse?_caseless ((source_host template t) ▸ hr)
      refine ⟨t, ht, ?_, ?_, ?_⟩
      · rw [← hn, Template.insides]
        simp
      · intro text
        rw [he, subject]
        simp [hf]
      · rw [he]
        exact hx

variable {template : Text} {p : Pattern} {t : Template}

theorem solves_host {host : Text} {others : List Text} :
    Atom.Solves (closes false true) (t.atoms.map (Atom.rename hostKey)) (host.map hostKey) others ↔
      ∃ values, others = values.map (List.map hostKey) ∧ t.Spells values host := by
  rw [← Template.writes_hostKey, ← Template.atoms_mapChars]
  refine (solves_iff (.inl rfl) (t.mapChars hostKey) (host.map hostKey) others).trans ?_
  constructor
  · rintro ⟨written, hw, rfl⟩
    exact hw
  · intro hw
    exact ⟨_, hw, rfl⟩

theorem isSome_bindings?_host (hf : HostForm template p t) (host : Text) :
    (p.bindings? host).isSome = true ↔ ∃ values, t.Spells values (withoutPort host) := by
  rw [bindings?, Expression.groups?, hf.subject, hf.regex, Regex.captures?_caseless,
    Option.isSome_map, Option.isSome_map, Option.isSome_map, Atom.isSome_solve_iff]
  constructor
  · rintro ⟨others, hs⟩
    obtain ⟨values, -, hv⟩ := solves_host.1 hs
    exact ⟨values, hv⟩
  · rintro ⟨values, hv⟩
    exact ⟨_, solves_host.2 ⟨values, rfl, hv⟩⟩

/-- The groups that renamed values close hold the values themselves, as they stand in the host. -/
theorem groups_of_spells {values : List Text} {host : Text} (h : t.Spells values host) :
    (List.range values.length).map
        (fun i => Regex.groupText? host
          (Atom.spans 0 0 (t.atoms.map (Atom.rename hostKey)) (values.map (List.map hostKey)))
          (i + 1))
      = values.map some := by
  obtain ⟨hc, -, u, hu, hfill⟩ := h
  have hatoms : t.atoms.map (Atom.rename hostKey) = u.atoms.map (Atom.rename hostKey) := by
    rw [← Template.atoms_mapChars, ← Template.atoms_mapChars, Template.mapChars_hostKey.2 hu]
  have hcu : values.length = u.holes.length := by
    have hl := congrArg (fun t => t.holes.length) hu
    simp only [Template.mapChars, List.length_map] at hl
    rw [hc, hl]
  have hgaps : values.length = Atom.gaps u.atoms := by
    rw [Template.gaps_atoms, Template.insides, List.length_map, hcu]
  have hg := Atom.groups_fill hgaps []
  rw [List.append_nil, ← Template.fill_eq hcu, hfill] at hg
  simp only [hatoms, Atom.spans_rename, hg]

/-- A match binds the names to the greediest values that spell the host, as they stand there. -/
theorem bindings?_host (hf : HostForm template p t) {host : Text} {bindings : List (Text × Text)}
    (h : p.bindings? host = some bindings) :
    ∃ values, t.Spells values (withoutPort host) ∧ bindings = p.names.zip values ∧
      ∀ others, t.Spells others (withoutPort host) → Atom.Greedier values others := by
  rw [bindings?, Expression.groups?, hf.subject, hf.regex, Regex.captures?_caseless,
    Option.map_map, Option.map_map, Option.map_eq_some_iff] at h
  obtain ⟨renamed, hs, rfl⟩ := h
  obtain ⟨hsolves, hgreedy⟩ := Atom.solve_eq_some_iff.1 hs
  obtain ⟨values, rfl, hv⟩ := solves_host.1 hsolves
  have hnames : p.names.length = values.length := by
    rw [hf.names, Template.insides, List.length_map, hv.count]
  refine ⟨values, hv, ?_, fun others ho => ?_⟩
  · simp only [Function.comp, hnames, groups_of_spells hv, zip_some]
  · exact (Atom.greedier_map hostKey values others).1
      (hgreedy _ (solves_host.2 ⟨others, rfl, ho⟩))

/-- A host pattern without a colon matches exactly the hosts that its template spells, their port
left off, and gives its names the greediest values with which it can. -/
theorem captures?_host_language {strict : Bool} {c : Compiler} {w after : Workshop}
    (hf : ':' ∉ template) (hc : c.Faithful w)
    (h : compile template .host strict c w = (.ok p, after)) :
    ∃ t, Template.read? template = some t ∧ t.text = template ∧ t.insides.Nodup ∧
      ∀ host vars,
        ((p.captures? host vars).isSome = true ↔
          ∃ values, t.Spells values (withoutPort host)) ∧
        ∀ bound, p.captures? host vars = some bound →
          ∃ values, t.Spells values (withoutPort host) ∧
            t.insides.map bound.get? = values.map some ∧
            (∀ name, name ∉ t.insides → bound.get? name = vars.get? name) ∧
            ∀ others, t.Spells others (withoutPort host) → Atom.Greedier values others := by
  have hm : compiled template .host strict = .ok p := by
    rw [← (compile_of_faithful hc template .host strict).1, h]
  obtain ⟨t, form⟩ := exists_hostForm hf hm
  obtain ⟨-, -, u, -, -, hd⟩ := labelled_of_compile h
  rw [form.names] at hd
  refine ⟨t, form.read, Template.text_of_read? form.read, hd, fun host vars => ⟨?_, ?_⟩⟩
  · rw [captures?_eq, Option.isSome_map]
    exact isSome_bindings?_host form host
  · intro bound hb
    rw [captures?_eq, Option.map_eq_some_iff] at hb
    obtain ⟨bindings, hb, rfl⟩ := hb
    obtain ⟨values, hv, rfl, hg⟩ := bindings?_host form hb
    have hl : t.insides.length = values.length := by
      rw [hv.count, Template.insides, List.length_map]
    rw [form.names]
    obtain ⟨hkeys, hothers⟩ := Vars.get?_insertAll_zip hd hl vars
    exact ⟨values, hv, hkeys, hothers, hg⟩

def tenantTemplate : Text := "{a}{b}.Example.com".toList

theorem tenant_bound :
    ∃ p after t, compile tenantTemplate .host false .standard .initial = (.ok p, after) ∧
      ':' ∉ tenantTemplate ∧ Template.read? tenantTemplate = some t ∧
      ∃ bound values, p.captures? "Www.EXAMPLE.com:8080".toList .empty = some bound ∧
        t.insides.map bound.get? = values.map some ∧
        t.Spells values "Www.EXAMPLE.com".toList ∧
        Atom.Greedier values ["W".toList, "ww".toList] := by
  have hf : ':' ∉ tenantTemplate := by decide
  have hs : Compiler.standard.Faithful .initial := trivial
  obtain ⟨p, after, hc⟩ :
      ∃ p after, compile tenantTemplate .host false .standard .initial = (.ok p, after) :=
    ⟨_, _, rfl⟩
  obtain ⟨t, ht, -, -, h⟩ := captures?_host_language hf hs hc
  obtain ⟨hmatch, hbound⟩ := h "Www.EXAMPLE.com:8080".toList .empty
  have hp : withoutPort "Www.EXAMPLE.com:8080".toList = "Www.EXAMPLE.com".toList := by decide
  have hw : t.Spells ["W".toList, "ww".toList] "Www.EXAMPLE.com".toList := by
    obtain rfl := Option.some.inj ht
    refine ⟨rfl, by decide, ⟨[([], "a".toList), ([], "b".toList)], ".EXAMPLE.com".toList⟩, ?_, rfl⟩
    decide +kernel
  rw [hp] at hmatch hbound
  obtain ⟨bound, hb⟩ := Option.isSome_iff_exists.1 (hmatch.2 ⟨_, hw⟩)
  obtain ⟨values, hv, hg, -, hgreedy⟩ := hbound bound hb
  exact ⟨p, after, t, hc, hf, ht, bound, values, hb, hg, hv, hgreedy _ hw⟩

end Pattern
end HttpRouter
