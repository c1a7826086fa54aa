import HttpRouter.Proofs.Pattern.Beginning

set_option autoImplicit false

namespace HttpRouter

def Cached.Honest (entry : Cached) : Prop := Expression.parse? entry.source = some entry.result

def Workshop.Learns (before after : Workshop) : Prop :=
  ∀ entry ∈ after.cached, entry ∈ before.cached ∨ entry.Honest

theorem Workshop.Learns.refl (w : Workshop) : w.Learns w := fun _ => .inl

namespace Compiler

def Faithful : Compiler → Workshop → Prop
  | standard, _ => True
  | supplied f, _ => ∀ source, f source = Expression.parse? source
  | caching cache inner, w =>
    inner.Faithful w ∧ ∀ entry ∈ w.cached, entry.cache = cache → entry.Honest

variable {c : Compiler} {w after : Workshop}

theorem Faithful.learns (h : c.Faithful w) (hl : w.Learns after) : c.Faithful after := by
  induction c with
  | standard => trivial
  | supplied f => exact h
  | caching cache inner ih =>
    refine ⟨ih h.1, fun entry he hc => ?_⟩
    rcases hl entry he with he | he
    · exact h.2 entry he hc
    · exact he

theorem compile_of_faithful (h : c.Faithful w) (source : Text) :
    (c.compile source w).1 = Expression.parse? source ∧ w.Learns (c.compile source w).2 := by
  induction c generalizing w with
  | standard => exact ⟨rfl, .refl w⟩
  | supplied f => exact ⟨h source, .refl w⟩
  | caching cache inner ih =>
    simp only [compile]
    cases hf : w.find? cache source with
    | some result =>
      refine ⟨?_, .refl w⟩
      obtain ⟨entry, he, rfl⟩ := Option.map_eq_some_iff.1 hf
      have hm := List.find?_some he
      rw [Bool.and_eq_true, beq_iff_eq, beq_iff_eq] at hm
      rw [← hm.2]
      exact (h.2 entry (List.mem_of_find?_eq_some he) hm.1).symm
    | none =>
      have hi := ih h.1
      generalize inner.compile source w = made at hi
      obtain ⟨result, after⟩ := made
      obtain ⟨rfl, hl⟩ := hi
      cases hp : Expression.parse? source with
      | none => exact ⟨rfl, hl⟩
      | some result =>
        refine ⟨rfl, fun entry he => ?_⟩
        rcases List.mem_cons.1 he with rfl | he
        · exact .inr hp
        · exact hl entry he

end Compiler

theorem Pattern.compile_of_faithful {c : Compiler} {w : Workshop} (h : c.Faithful w)
    (template : Text) (kind : Kind) (strict : Bool) :
    (compile template kind strict c w).1 = compiled template kind strict ∧
      w.Learns (compile template kind strict c w).2 := by
  unfold compile compiled
  simp only
  cases plan template kind (strict && kind = .path) with
  | error e => exact ⟨rfl, .refl w⟩
  | ok made =>
    have hc := Compiler.compile_of_faithful h made.source
    simp only
    generalize c.compile made.source w = result at hc
    obtain ⟨expression, after⟩ := result
    obtain ⟨rfl, hl⟩ := hc
    exact ⟨rfl, hl⟩

end HttpRouter
