import HttpRouter.Proofs.Pattern.Beginning
import HttpRouter.Proofs.Pattern.Names
import Mathlib.Logic.Basic

set_option autoImplicit false

/-!
# Ports of hosts

A host is tried without its port unless the template has a colon.  A colon in the literal text
stands before a port of the template.  The colon that divides the name of a placeholder from its
constraint counts as well: a template with a constraint is tried with the port of the host even
though it has no port itself.
-/
namespace HttpRouter

namespace Template

def literals (t : Template) : List Text := t.holes.map (·.1) ++ [t.tail]

theorem mem_text {t : Template} {c : Char} (ho : c ≠ '\x7b') (hc : c ≠ '\x7d') :
    c ∈ t.text ↔ (∃ literal ∈ t.literals, c ∈ literal) ∨ ∃ inside ∈ t.insides, c ∈ inside := by
  have hbrace : ∀ inside : Text, c ∈ brace inside ↔ c ∈ inside := by
    intro inside
    simp [brace, ho, hc]
  have hl : (∃ literal ∈ t.literals, c ∈ literal) ↔
      (∃ hole ∈ t.holes, c ∈ hole.1) ∨ c ∈ t.tail := by
    simp [literals, or_and_right, exists_or]
  have hi : (∃ inside ∈ t.insides, c ∈ inside) ↔ ∃ hole ∈ t.holes, c ∈ hole.2 := by
    simp only [insides, List.mem_map, exists_exists_and_eq_and]
  have ht : c ∈ t.text ↔ (∃ hole ∈ t.holes, c ∈ hole.1 ∨ c ∈ hole.2) ∨ c ∈ t.tail := by
    simp [text, hbrace]
  rw [ht, hl, hi, or_right_comm]
  simp only [and_or_left, exists_or]

theorem unconstrained_eq_false {template : Text} {t : Template} (ht : read? template = some t) :
    unconstrained template = false ↔ ∃ inside ∈ t.insides, ':' ∈ inside := by
  simp [unconstrained, ht]

theorem unconstrained_of_not_mem {template : Text} (h : ':' ∉ template) :
    unconstrained template = true := by
  cases ht : read? template with
  | none => rw [unconstrained, ht, Option.all_none]
  | some t =>
    rw [← text_of_read? ht, mem_text (by decide) (by decide), not_or] at h
    rw [← Bool.not_eq_false, unconstrained_eq_false ht]
    exact h.2

/-- Where the literal text has no colon, only a constraint can bring one in. -/
theorem contains_colon {template : Text} {t : Template} (ht : read? template = some t)
    (hl : ∀ literal ∈ t.literals, ':' ∉ literal) :
    template.contains ':' = !unconstrained template := by
  have hm : ':' ∈ template ↔ unconstrained template = false := by
    rw [← text_of_read? ht, mem_text (by decide) (by decide), text_of_read? ht,
      unconstrained_eq_false ht]
    exact or_iff_right fun ⟨literal, hi, hc⟩ => hl literal hi hc
  rw [Bool.eq_iff_iff, List.contains_iff_mem, hm, Bool.not_eq_true']

end Template

namespace Pattern

theorem withoutPort_of_not_mem {host : Text} (h : '[' ∉ host) :
    withoutPort host = (Text.cut ':' host).1 := by
  unfold withoutPort
  split
  · exact absurd List.mem_cons_self h
  · rfl

theorem withoutPort_append {host : Text} (hc : ':' ∉ host) (hb : '[' ∉ host) (port : Text) :
    withoutPort (host ++ ':' :: port) = withoutPort host := by
  have hcut : (Text.cut ':' (host ++ ':' :: port)).1 = (Text.cut ':' host).1 := by
    rw [Text.cut_eq hc, Text.cut_of_not_mem hc]
  rw [withoutPort_of_not_mem hb, ← hcut]
  unfold withoutPort
  split
  · rename_i rest he
    cases host with
    | nil => cases he
    | cons c front =>
      cases he
      exact absurd List.mem_cons_self hb
  · rfl

variable {template : Text} {strict : Bool} {c : Compiler} {w after : Workshop} {p : Pattern}
  {t : Template}

theorem subject_host (h : compile template .host strict c w = (.ok p, after))
    (ht : Template.read? template = some t) (hl : ∀ literal ∈ t.literals, ':' ∉ literal)
    (text : Text) :
    p.subject text = if Template.unconstrained template then withoutPort text else text := by
  obtain ⟨made, expression, -, rfl⟩ := eq_of_compile h
  simp only [subject, Template.contains_colon ht hl, decide_true, Bool.true_and, Bool.not_not]

/-- Without constraints, a template that names no port matches a host with a port as it matches the
host alone.  With a constraint, the port belongs to what the expression is tried on. -/
theorem captures?_port (h : compile template .host strict c w = (.ok p, after))
    (ht : Template.read? template = some t) (hl : ∀ literal ∈ t.literals, ':' ∉ literal) :
    (Template.unconstrained template = true →
      ∀ host port vars, ':' ∉ host → '[' ∉ host →
        p.captures? (host ++ ':' :: port) vars = p.captures? host vars ∧
        p.isMatch (host ++ ':' :: port) = p.isMatch host) ∧
    (Template.unconstrained template = false → ∀ text, p.subject text = text) := by
  have hs := subject_host h ht hl
  constructor
  · intro hu host port vars hc hb
    have he : p.subject (host ++ ':' :: port) = p.subject host := by
      rw [hs, hs, if_pos hu, if_pos hu, withoutPort_append hc hb]
    exact ⟨by rw [captures?, captures?, bindings?, bindings?, he], by rw [isMatch, isMatch, he]⟩
  · intro hu text
    rw [hs, hu]
    rfl

def subdomainTemplate : Text := "{sub}.example.com".toList

theorem subdomain_port :
    ∃ p after t, compile subdomainTemplate .host false .standard .initial = (.ok p, after) ∧
      Template.read? subdomainTemplate = some t ∧ (∀ literal ∈ t.literals, ':' ∉ literal) ∧
      Template.unconstrained subdomainTemplate = true ∧
      (p.captures? "www.example.com".toList .empty).isSome = true ∧
      p.captures? "www.example.com:8080".toList .empty
        = p.captures? "www.example.com".toList .empty := by
  obtain ⟨p, after, hc, hm⟩ :
      ∃ p after, compile subdomainTemplate .host false .standard .initial = (.ok p, after) ∧
        (p.captures? "www.example.com".toList .empty).isSome = true :=
    ⟨_, _, rfl, by decide +kernel⟩
  obtain ⟨t, ht⟩ : ∃ t, Template.read? subdomainTemplate = some t := ⟨_, rfl⟩
  have hl : ∀ literal ∈ t.literals, ':' ∉ literal := by
    obtain rfl := Option.some.inj ht
    decide
  have hu : Template.unconstrained subdomainTemplate = true := by decide
  obtain ⟨hsame, -⟩ := (captures?_port hc ht hl).1 hu "www.example.com".toList "8080".toList
    .empty (by decide) (by decide)
  exact ⟨p, after, t, hc, ht, hl, hu, hm, hsame⟩

def letteredTemplate : Text := "{sub:[a-z]+}.example.com".toList

theorem lettered_wants_no_port :
    ∃ p after t, compile letteredTemplate .host false .standard .initial = (.ok p, after) ∧
      Template.read? letteredTemplate = some t ∧ (∀ literal ∈ t.literals, ':' ∉ literal) ∧
      (p.captures? "www.example.com".toList .empty).isSome = true ∧
      (p.captures? "www.example.com:8080".toList .empty).isSome = false := by
  exact ⟨_, _, _, rfl, rfl, by decide, by decide +kernel, by decide +kernel⟩

end Pattern
end HttpRouter
