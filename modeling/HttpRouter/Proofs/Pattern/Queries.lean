import HttpRouter.Matcher
import HttpRouter.Proofs.Pattern.Beginning
import HttpRouter.Proofs.Pattern.Names
import HttpRouter.Proofs.Regex.OpenEnd

set_option autoImplicit false

namespace HttpRouter

def Text.Braceless (text : Text) : Prop := ∀ c ∈ text, c ≠ '\x7b' ∧ c ≠ '\x7d'

instance (text : Text) : Decidable text.Braceless :=
  List.decidableBAll (fun c => c ≠ '\x7b' ∧ c ≠ '\x7d') text

theorem Text.Braceless.pair {key value : Text} (hk : key.Braceless) (hv : value.Braceless) :
    (key ++ '=' :: value).Braceless := by
  intro c hc
  rcases List.mem_append.1 hc with hc | hc
  · exact hk c hc
  · rcases List.mem_cons.1 hc with rfl | hc
    · decide
    · exact hv c hc

def Query.IsFirst (key value : Text) (pairs : List (Text × Text)) : Prop :=
  ∃ before later, pairs = before ++ (key, value) :: later ∧ ∀ pair ∈ before, pair.1 ≠ key

theorem Query.first?_eq_some_iff {key value : Text} {pairs : List (Text × Text)} :
    first? key pairs = some value ↔ IsFirst key value pairs := by
  rw [first?, Option.map_eq_some_iff]
  constructor
  · rintro ⟨⟨found, value⟩, h, rfl⟩
    obtain ⟨hk, before, later, hp, hb⟩ := List.find?_eq_some_iff_append.1 h
    obtain rfl : found = key := by simpa using hk
    exact ⟨before, later, hp, fun pair hm => by simpa using hb pair hm⟩
  · rintro ⟨before, later, hp, hb⟩
    refine ⟨(key, value), List.find?_eq_some_iff_append.2 ⟨by simp, before, later, hp, ?_⟩, rfl⟩
    intro pair hm
    simpa using hb pair hm

instance (key value : Text) (pairs : List (Text × Text)) :
    Decidable (Query.IsFirst key value pairs) :=
  decidable_of_iff _ Query.first?_eq_some_iff

theorem Query.exists_isFirst_iff {key : Text} {pairs : List (Text × Text)} :
    (∃ value, IsFirst key value pairs) ↔ key ∈ pairs.map Prod.fst := by
  simp only [← first?_eq_some_iff, first?, ← Option.isSome_iff_exists, Option.isSome_map,
    List.find?_isSome, beq_iff_eq, List.mem_map]

namespace Pattern

open Regex (Atom openEnd completes)

section Literal
variable {template : Text} {strict : Bool} {p : Pattern}

/-- What the pattern of a query template without placeholders is. -/
theorem literal_of_compiled (hb : template.Braceless)
    (h : compiled template .query strict = .ok p) :
    p.template = template ∧ p.names = [] ∧ (∀ text, p.subject text = text) ∧
      p.expression.regex
        = Regex.anchored (template.map Atom.char) (openEnd (Text.endsWith template '=')) := by
  have hstrict : (strict && decide (Kind.query = .path)) = false := Bool.and_false strict
  have ht : Template.read? template = some ⟨[], template⟩ :=
    Template.readFrom_braceless hb 0 [] []
  obtain ⟨src, regex, hp, hr, he⟩ := compiled_eq_ok h
  rw [hstrict, plan, ht] at hp
  simp only [List.map_nil, readVariables, Except.ok.injEq, Plan.mk.injEq] at hp
  obtain ⟨rfl, hn⟩ := hp
  have hs : source template .query false ⟨[], template⟩ []
      = '^' :: ((template.map Atom.char).flatMap Atom.spell
          ++ ((if Text.endsWith template '=' then ".*".toList else []) ++ ['$'])) := by
    rw [← escape_eq_spell]
    simp [source, ending, groups, Kind.defaultConstraint]
  rw [hs] at hr
  rw [he]
  exact ⟨rfl, hn.symm, fun text => rfl, Regex.parse?_ending (Regex.Reader.closes_openEnd _) hr⟩

theorem captures?_literal (hb : template.Braceless)
    (h : compiled template .query strict = .ok p) (text : Text) (vars : Vars) :
    p.captures? text vars
      = (Atom.solve (completes (Text.endsWith template '=')) (template.map Atom.char) text).map
          fun _ => vars := by
  obtain ⟨-, hn, hs, hr⟩ := literal_of_compiled hb h
  rw [captures?_eq, bindings?, Expression.groups?, hs, hr, hn,
    Regex.captures?_ending (Regex.ends_openEnd _), Option.map_map, Option.map_map, Option.map_map]
  refine congrArg (fun f => Option.map f _) (funext fun values => ?_)
  rfl

theorem isSome_solve_literal {more : Bool} {text : Text} :
    (Atom.solve (completes more) (template.map Atom.char) text).isSome = true ↔
      ∃ extra, text = template ++ extra ∧ completes more extra = true := by
  rw [Atom.isSome_solve_iff]
  constructor
  · rintro ⟨values, rest, hf, ha⟩
    rw [← List.append_nil (template.map Atom.char), Atom.fits_chars] at hf
    obtain ⟨extra, rfl, hf⟩ := hf
    obtain ⟨-, rfl⟩ := Atom.fits_nil.1 hf
    exact ⟨extra, rfl, ha⟩
  · rintro ⟨extra, rfl, ha⟩
    refine ⟨[], extra, ?_, ha⟩
    rw [← List.append_nil (template.map Atom.char), Atom.fits_chars]
    exact ⟨extra, rfl, .nil extra⟩

end Literal
end Pattern

namespace Matcher

/-- The matcher accepts the request, without binding a variable, if the condition holds, and rejects
it if not. -/
def Asks (m : Matcher) (request : Request) (condition : Prop) : Prop :=
  ∀ vars, (condition → m.evaluate request vars = .matched vars) ∧
    (¬ condition → m.evaluate request vars = .rejected)

variable {m : Matcher} {request : Request} {condition other : Prop}

theorem Asks.congr (h : m.Asks request condition) (hc : condition ↔ other) :
    m.Asks request other := by
  rwa [← hc]

open Regex (Atom completes)

/-- The first value of the key is tried, and what follows in it after the value of the template. -/
theorem asks_literal {key value : Text} {strict : Bool} {p : Pattern} (hk : key.Braceless)
    (he : '=' ∉ key) (hv : value.Braceless)
    (h : Pattern.compiled (key ++ '=' :: value) .query strict = .ok p) (request : Request) :
    (query p).Asks request
      (∃ extra, Query.IsFirst key (value ++ extra) request.queryPairs ∧
        completes (Text.endsWith (key ++ '=' :: value) '=') extra = true) := by
  intro vars
  have hc := Pattern.captures?_literal (hk.pair hv) h (queryText p request) vars
  have hkey : queryKey p = key := by
    obtain ⟨ht, -⟩ := Pattern.literal_of_compiled (hk.pair hv) h
    rw [queryKey, ht, Text.cut_eq he]
  generalize Text.endsWith (key ++ '=' :: value) '=' = more at hc ⊢
  have hsome : (Atom.solve (completes more) ((key ++ '=' :: value).map Atom.char)
      (queryText p request)).isSome = true ↔
      ∃ extra, Query.IsFirst key (value ++ extra) request.queryPairs ∧
        completes more extra = true := by
    rw [Pattern.isSome_solve_literal, queryText, hkey]
    refine exists_congr fun extra => and_congr_left fun _ => ?_
    rw [← Query.first?_eq_some_iff]
    cases Query.first? key request.queryPairs with
    | none => simp
    | some found => simp
  rw [← hsome, evaluate, hc]
  cases Atom.solve (completes more) ((key ++ '=' :: value).map Atom.char) (queryText p request) with
  | none => exact ⟨nofun, fun _ => rfl⟩
  | some values => exact ⟨fun _ => rfl, fun hn => absurd rfl hn⟩

end Matcher
end HttpRouter
