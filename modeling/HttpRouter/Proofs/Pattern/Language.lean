import HttpRouter.Proofs.Pattern.Faithful
import HttpRouter.Proofs.Pattern.Names
import HttpRouter.Proofs.Regex.Greedy

set_option autoImplicit false

namespace HttpRouter

open Regex (Atom closes)

namespace Template

def fill (t : Template) (values : List Text) : Text :=
  (t.holes.zip values).flatMap (fun (hole, value) => hole.1 ++ value) ++ t.tail

/-- The template becomes the text with these values, which are not empty and have no slash. -/
structure Writes (t : Template) (values : List Text) (written : Text) : Prop where
  count : values.length = t.holes.length
  proper : ∀ value ∈ values, value ≠ [] ∧ '/' ∉ value
  filled : t.fill values = written

theorem atoms_cons (hole : Text × Text) (holes : List (Text × Text)) (tail : Text) :
    (mk (hole :: holes) tail).atoms = hole.1.map Atom.char ++ .gap :: (mk holes tail).atoms := by
  simp [atoms]

theorem writes_nil {tail : Text} {values : List Text} {written : Text} :
    (mk [] tail).Writes values written ↔ values = [] ∧ written = tail := by
  constructor
  · rintro ⟨hc, -, rfl⟩
    obtain rfl := List.length_eq_zero_iff.1 hc
    exact ⟨rfl, rfl⟩
  · rintro ⟨rfl, rfl⟩
    exact ⟨rfl, nofun, rfl⟩

theorem writes_cons {hole : Text × Text} {holes : List (Text × Text)} {tail : Text}
    {values : List Text} {written : Text} :
    (mk (hole :: holes) tail).Writes values written ↔
      ∃ value others after, values = value :: others ∧ (value ≠ [] ∧ '/' ∉ value) ∧
        written = hole.1 ++ (value ++ after) ∧ (mk holes tail).Writes others after := by
  constructor
  · rintro ⟨hc, hp, rfl⟩
    cases values with
    | nil => cases hc
    | cons value others =>
      refine ⟨value, others, (mk holes tail).fill others, rfl, hp value List.mem_cons_self, ?_,
        Nat.succ.inj hc, fun v hv => hp v (List.mem_cons_of_mem value hv), rfl⟩
      simp [fill]
  · rintro ⟨value, others, after, rfl, hv, rfl, hc, hp, rfl⟩
    refine ⟨congrArg Nat.succ hc, fun v hm => ?_, ?_⟩
    · rcases List.mem_cons.1 hm with rfl | hm
      · exact hv
      · exact hp v hm
    · simp [fill]

/-- To fill the gaps of a template is to write it. -/
theorem fits_iff (t : Template) (values : List Text) (text rest : Text) :
    Atom.Fits t.atoms values text rest ↔
      ∃ written, t.Writes values written ∧ text = written ++ rest := by
  obtain ⟨holes, tail⟩ := t
  induction holes generalizing values text with
  | nil =>
    have ha : (mk [] tail).atoms = tail.map Atom.char ++ [] := by simp [atoms]
    simp only [ha, Atom.fits_chars, Atom.fits_nil, writes_nil]
    constructor
    · rintro ⟨after, rfl, rfl, rfl⟩
      exact ⟨tail, ⟨rfl, rfl⟩, rfl⟩
    · rintro ⟨written, ⟨rfl, rfl⟩, rfl⟩
      exact ⟨rest, rfl, rfl, rfl⟩
  | cons hole holes ih =>
    simp only [atoms_cons, Atom.fits_chars, Atom.fits_gap, writes_cons, ih]
    constructor
    · rintro ⟨-, rfl, value, others, -, rfl, hv, rfl, after, hw, rfl⟩
      exact ⟨_, ⟨value, others, after, rfl, hv, rfl, hw⟩, by simp⟩
    · rintro ⟨-, ⟨value, others, after, rfl, hv, rfl, hw⟩, rfl⟩
      exact ⟨value ++ (after ++ rest), by simp, value, others, after ++ rest, rfl, hv, rfl, after,
        hw, rfl⟩

end Template

namespace Pattern

theorem zip_some {names values : List Text} :
    ((names.zip (values.map some)).filterMap fun (name, value) => value.map (name, ·))
      = names.zip values := by
  induction names generalizing values with
  | nil => rfl
  | cons name rest ih =>
    cases values with
    | nil => rfl
    | cons value values => simp [ih]

/-- A match binds the names to the values that are found for the gaps. -/
theorem bindings?_eq {template : Text} {kind : Kind} {strict : Bool} {p : Pattern} {t : Template}
    (h : Form template kind strict p t) (text : Text) :
    p.bindings? text
      = (Atom.solve (closes strict (kind = .path)) (t.trimmed strict).atoms text).map
          (p.names.zip ·) := by
  rw [bindings?, Expression.groups?, h.subject, h.regex, Regex.captures?_anchored, Option.map_map,
    Option.map_map]
  cases hs : Atom.solve (closes strict (kind = .path)) (t.trimmed strict).atoms text with
  | none => rfl
  | some values =>
    obtain ⟨rest, hf, -⟩ := Atom.solves_of_solve hs
    have hl : p.names.length = values.length := by
      rw [hf.length_eq, Template.gaps_atoms, Template.insides_trimmed, h.names]
    have hg := Atom.groups_of_solve hs
    simp only [Option.map_some, Function.comp, hl, hg, zip_some]

def Kind.Spans : Kind → Text → Text → Prop
  | .pathStart, written, text => written <+: text
  | .path, written, text | .host, written, text | .query, written, text => written = text

theorem solves_iff {kind : Kind} (hk : kind = .path ∨ kind = .pathStart) (t : Template)
    (text : Text) (values : List Text) :
    Atom.Solves (closes false (kind = .path)) t.atoms text values ↔
      ∃ written, t.Writes values written ∧ kind.Spans written text := by
  simp only [Atom.Solves, Template.fits_iff]
  rcases hk with rfl | rfl
  · constructor
    · rintro ⟨rest, ⟨written, hw, rfl⟩, hc⟩
      obtain rfl : rest = [] := by simpa [closes] using hc
      exact ⟨written, hw, (List.append_nil written).symm⟩
    · rintro ⟨written, hw, rfl⟩
      exact ⟨[], ⟨written, hw, (List.append_nil written).symm⟩, rfl⟩
  · constructor
    · rintro ⟨rest, ⟨written, hw, rfl⟩, -⟩
      exact ⟨written, hw, rest, rfl⟩
    · rintro ⟨written, hw, rest, rfl⟩
      exact ⟨rest, ⟨written, hw, rfl⟩, rfl⟩

/-- A pattern without constraints matches exactly the texts that its template can be made into, and
gives its names the greediest values with which it can be. -/
theorem captures?_language {template : Text} {kind : Kind} {strict : Bool} {c : Compiler}
    {w after : Workshop} {p : Pattern} (hk : kind = .path ∧ strict = false ∨ kind = .pathStart)
    (hf : Template.unconstrained template = true) (hc : c.Faithful w)
    (h : compile template kind strict c w = (.ok p, after)) :
    ∃ t, Template.read? template = some t ∧ t.text = template ∧ t.insides.Nodup ∧
      ∀ text vars,
        ((p.captures? text vars).isSome = true ↔
          ∃ values written, t.Writes values written ∧ kind.Spans written text) ∧
        ∀ bound, p.captures? text vars = some bound →
          ∃ values written, t.Writes values written ∧ kind.Spans written text ∧
            t.insides.map bound.get? = values.map some ∧
            (∀ name, name ∉ t.insides → bound.get? name = vars.get? name) ∧
            ∀ others text', t.Writes others text' → kind.Spans text' text →
              Atom.Greedier values others := by
  have hkind : kind = .path ∨ kind = .pathStart := hk.imp_left And.left
  have hstrict : (strict && decide (kind = .path)) = false := by
    rcases hk with ⟨rfl, rfl⟩ | rfl
    · rfl
    · exact Bool.and_false strict
  have hm : compiled template kind strict = .ok p := by
    rw [← (compile_of_faithful hc template kind strict).1, h]
  obtain ⟨t, form⟩ := exists_form hkind hf hm
  rw [hstrict] at form
  obtain ⟨-, -, u, -, -, hd⟩ := labelled_of_compile h
  rw [form.names] at hd
  have hb := fun text => bindings?_eq form text
  refine ⟨t, form.read, Template.text_of_read? form.read, hd, fun text vars => ⟨?_, ?_⟩⟩
  · rw [captures?_eq, Option.isSome_map, hb, Option.isSome_map, Atom.isSome_solve_iff]
    exact exists_congr fun values => solves_iff hkind t text values
  · intro bound he
    rw [captures?_eq, hb, Option.map_map, Option.map_eq_some_iff] at he
    obtain ⟨values, hs, rfl⟩ := he
    obtain ⟨hv, hg⟩ := Atom.solve_eq_some_iff.1 hs
    obtain ⟨written, hw, hspan⟩ := (solves_iff hkind t text values).1 hv
    have hl : t.insides.length = values.length := by
      rw [hw.count, Template.insides, List.length_map]
    have hfst : (t.insides.zip values).map Prod.fst = t.insides :=
      List.map_fst_zip (Nat.le_of_eq hl)
    have hsnd : (t.insides.zip values).map Prod.snd = values :=
      List.map_snd_zip (Nat.le_of_eq hl.symm)
    have hkeys := Vars.map_get?_insertAll (hfst.symm ▸ hd) vars
    rw [hfst, hsnd] at hkeys
    rw [form.names]
    refine ⟨values, written, hw, hspan, hkeys, fun name hn => ?_, fun others text' ho ht => ?_⟩
    · exact Vars.get?_insertAll_of_not_mem (hfst.symm ▸ hn)
    · exact hg others ((solves_iff hkind t text others).2 ⟨text', ho, ht⟩)

def adjacentTemplate : Text := "/{a}{b}.x".toList

theorem adjacent_bound :
    ∃ p after t, compile adjacentTemplate .path false .standard .initial = (.ok p, after) ∧
      Template.unconstrained adjacentTemplate = true ∧ Template.read? adjacentTemplate = some t ∧
      ∃ bound values, p.captures? "/pqr.x".toList .empty = some bound ∧
        t.insides.map bound.get? = values.map some ∧ t.fill values = "/pqr.x".toList ∧
        Atom.Greedier values ["p".toList, "qr".toList] := by
  have hf : Template.unconstrained adjacentTemplate = true := by decide
  have hs : Compiler.standard.Faithful .initial := trivial
  obtain ⟨p, after, hc⟩ :
      ∃ p after, compile adjacentTemplate .path false .standard .initial = (.ok p, after) :=
    ⟨_, _, rfl⟩
  obtain ⟨t, ht, -, -, h⟩ := captures?_language (.inl ⟨rfl, rfl⟩) hf hs hc
  obtain ⟨hmatch, hbound⟩ := h "/pqr.x".toList .empty
  have hw : t.Writes ["p".toList, "qr".toList] "/pqr.x".toList := by
    obtain rfl := Option.some.inj ht
    exact ⟨rfl, by decide, rfl⟩
  obtain ⟨bound, hb⟩ := Option.isSome_iff_exists.1 (hmatch.2 ⟨_, _, hw, rfl⟩)
  obtain ⟨values, written, hv, rfl, hg, -, hgreedy⟩ := hbound bound hb
  exact ⟨p, after, t, hc, hf, ht, bound, values, hb, hg, hv.filled, hgreedy _ _ hw rfl⟩

end Pattern
end HttpRouter
