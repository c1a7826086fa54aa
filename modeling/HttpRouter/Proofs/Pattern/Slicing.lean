import HttpRouter.Proofs.Pattern.Positions
import HttpRouter.Proofs.Pattern.Slash

set_option autoImplicit false

/-!
# Templates in slices

A template can be compiled without being divided first: its braces are located, and its parts are cut
out at their positions, from the template without its slash if that is left off.  A cut that misses
the text or falls within a character would leave no result at all.  No cut does, so that slicing
gives what compiling gives, and the same goes for the port that is cut off a host.
-/
namespace HttpRouter

namespace Pattern

open Text (width slice? dropLastIf)

structure Progress where
  source : Text
  seen : List Text
  names : List Text
  stop : Nat

namespace Progress

def add (made : Progress) (literal : Text) (v : Variable) (stop : Nat) : Progress where
  source := made.source ++ (Regex.escape literal ++ '(' :: (v.constraint ++ [')']))
  seen := v.name :: made.seen
  names := made.names ++ [v.name]
  stop := stop

def addAll (made : Progress) (literals : List Text) (vs : List Variable) (stop : Nat) :
    Progress where
  source := made.source ++ groups literals vs
  seen := (vs.map (·.name)).reverse ++ made.seen
  names := made.names ++ vs.map (·.name)
  stop := stop

theorem addAll_nil (made : Progress) : made.addAll [] [] made.stop = made := by
  obtain ⟨source, seen, names, stop⟩ := made
  simp [addAll, groups]

theorem addAll_add (made : Progress) (literal : Text) (v : Variable) (reached : Nat)
    (literals : List Text) (vs : List Variable) (stop : Nat) :
    (made.add literal v reached).addAll literals vs stop
      = made.addAll (literal :: literals) (v :: vs) stop := by
  simp [addAll, add, groups]

end Progress

/-- Goes through the braces of `template` and cuts the placeholders, and the literal texts before
them, out of `body`. -/
def slicePlaceholders (template body : Text) (kind : Kind) :
    List (Nat × Nat) → Progress → Option (Except Error Progress)
  | [], made => some (.ok made)
  | (opened, closed) :: rest, made => do
    let inside ← slice? body (opened + 1) closed
    let v := Variable.ofPlaceholder kind inside
    if v.name.isEmpty || v.constraint.isEmpty then
      let placeholder ← slice? body opened (closed + 1)
      pure (.error (.missingNameOrPattern template placeholder))
    else if made.seen.contains v.name then pure (.error (.duplicateVariable template v.name))
    else
      let literal ← slice? body made.stop opened
      slicePlaceholders template body kind rest (made.add literal v (closed + 1))

def slicePlan (template : Text) (kind : Kind) (strict : Bool) : Option (Except Error Plan) :=
  match Template.braces? template with
  | none => some (.error (.unbalancedBraces template))
  | some pairs => do
    let body := if strict then dropLastIf '/' template else template
    let start := '^' :: (if kind = .host then "(?i)".toList else [])
    match ← slicePlaceholders template body kind pairs ⟨start, [], [], 0⟩ with
    | .error e => pure (.error e)
    | .ok made =>
      let tail ← slice? body made.stop (width body)
      pure (.ok ⟨made.source ++ Regex.escape tail ++ ending template kind strict, made.names⟩)

/-- The compilation of a template by slices of it, without a result if one of these fails. -/
def sliceCompile (template : Text) (kind : Kind) (strictSlash : Bool) (compiler : Compiler) :
    Build (Option (Except Error Pattern)) := fun w =>
  let strict := strictSlash && kind = .path
  match slicePlan template kind strict with
  | none => (none, w)
  | some (.error e) => (some (.error e), w)
  | some (.ok plan) =>
    let (expression, w) := compiler.compile plan.source w
    (some (ofCompiled template kind strict plan expression), w)

def sliceHost (host : Text) : Option Text :=
  match host with
  | '[' :: rest =>
    match Text.find? ']' rest with
    | some position => slice? host 0 (position + 2)
    | none => some host
  | _ => some (Text.cut ':' host).1

section
variable (front literal inside back : Text)

theorem slice?_placeholder :
    slice? (front ++ (literal ++ (Template.brace inside ++ back))) (width front + width literal)
      (width front + width literal + 1 + width inside + 1) = some (Template.brace inside) := by
  have hs := Text.slice?_append (front ++ literal) (Template.brace inside) back
  rw [Text.width_append, Template.width_brace, List.append_assoc] at hs
  have hstop : width front + width literal + (1 + width inside + 1)
      = width front + width literal + 1 + width inside + 1 := by omega
  rwa [hstop] at hs

theorem slice?_inside :
    slice? (front ++ (literal ++ (Template.brace inside ++ back)))
      (width front + width literal + 1) (width front + width literal + 1 + width inside)
      = some inside := by
  have hs := Text.slice?_append (front ++ (literal ++ ['\x7b'])) inside ('\x7d' :: back)
  have hopen : width ['\x7b'] = 1 := by decide
  rw [Text.width_append, Text.width_append, hopen, ← Nat.add_assoc] at hs
  simpa [Template.brace] using hs

end

/-- The slices are the parts of what the template is read as. -/
theorem slicePlaceholders_spans (template tail : Text) (kind : Kind) (holes : List (Text × Text))
    (front : Text) (made : Progress) (hstop : made.stop = width front) :
    slicePlaceholders template (front ++ Template.text ⟨holes, tail⟩) kind
        (Template.spans (width front) holes) made
      = some ((readVariables template kind made.seen (holes.map (·.2))).map fun vs =>
          made.addAll (holes.map (·.1)) vs (width (front ++ Template.text ⟨holes, []⟩))) := by
  induction holes generalizing front made with
  | nil =>
    have hend : width (front ++ Template.text ⟨[], []⟩) = made.stop := by
      rw [hstop]
      exact congrArg width (List.append_nil front)
    rw [hend]
    change some (Except.ok made) = some (Except.ok (made.addAll [] [] made.stop))
    rw [Progress.addAll_nil]
  | cons hole rest ih =>
    obtain ⟨literal, inside⟩ := hole
    have hliteral := Text.slice?_append front literal
      (Template.brace inside ++ Template.text ⟨rest, tail⟩)
    have hplaceholder := slice?_placeholder front literal inside (Template.text ⟨rest, tail⟩)
    have hinside := slice?_inside front literal inside (Template.text ⟨rest, tail⟩)
    simp only [Template.text_cons, Template.spans, slicePlaceholders, List.map_cons, readVariables,
      hstop, hinside, hplaceholder, hliteral, Option.bind_eq_bind, Option.bind_some]
    split
    · rfl
    · split
      · rfl
      · -- The next slices begin behind this placeholder.
        have hrest := ih (front ++ (literal ++ Template.brace inside))
          (made.add literal (Variable.ofPlaceholder kind inside)
            (width (front ++ (literal ++ Template.brace inside)))) rfl
        simp only [Template.width_behind, List.append_assoc, Progress.addAll_add] at hrest
        refine hrest.trans (congrArg some ?_)
        simp only [Progress.add]
        cases readVariables template kind _ (rest.map (·.2)) <;> rfl

/-- The slash at the end of a template is the one at the end of its tail. -/
theorem dropLastIf_text (t : Template) :
    dropLastIf '/' t.text = Template.text ⟨t.holes, dropLastIf '/' t.tail⟩ := by
  obtain ⟨holes, tail⟩ := t
  rw [dropLastIf, Template.endsWith_text]
  cases he : Text.endsWith tail '/' with
  | false => rw [Text.dropLastIf_of_not_endsWith he, if_neg Bool.false_ne_true]
  | true =>
    obtain ⟨front, rfl⟩ := Text.exists_of_endsWith he
    rw [if_pos rfl, Text.dropLastIf_append, Template.text_append, ← List.append_assoc,
      List.dropLast_concat, ← Template.text_append]

/-- Every slice succeeds, with and without the slash at the end. -/
theorem slicePlan_eq (template : Text) (kind : Kind) (strict : Bool) :
    slicePlan template kind strict = some (plan template kind strict) := by
  rw [slicePlan, plan, Template.braces?_eq]
  cases ht : Template.read? template with
  | none => rfl
  | some t =>
    obtain rfl := Template.text_of_read? ht
    generalize htail : (if strict then dropLastIf '/' t.tail else t.tail) = tail
    have hbody : (if strict then dropLastIf '/' t.text else t.text)
        = Template.text ⟨t.holes, tail⟩ := by
      rw [← htail, dropLastIf_text]
      cases strict <;> rfl
    have hplaceholders := slicePlaceholders_spans t.text tail kind t.holes []
      ⟨'^' :: (if kind = .host then "(?i)".toList else []), [], [], 0⟩ rfl
    have hlast := Text.slice?_append (Template.text ⟨t.holes, []⟩) tail []
    rw [List.append_nil, ← Template.text_append, ← Text.width_append,
      ← Template.text_append] at hlast
    simp only [List.nil_append, Text.width_nil] at hplaceholders
    simp only [Option.map_some, hbody, hplaceholders, Option.bind_eq_bind, Option.bind_some]
    cases readVariables t.text kind [] (t.holes.map (·.2)) with
    | error e => rfl
    | ok vs =>
      simp only [Except.map, Progress.addAll, hlast, Option.bind_some]
      refine congrArg (fun text => some (Except.ok (Plan.mk text _))) ?_
      simp [source, htail]

theorem sliceCompile_eq (template : Text) (kind : Kind) (strictSlash : Bool) (compiler : Compiler)
    (w : Workshop) : sliceCompile template kind strictSlash compiler w
      = (some (compile template kind strictSlash compiler w).1,
          (compile template kind strictSlash compiler w).2) := by
  simp only [sliceCompile, compile, slicePlan_eq]
  cases plan template kind (strictSlash && kind = .path) <;> rfl

theorem sliceHost_bracketed (rest : Text) :
    sliceHost ('[' :: rest) = some (withoutPort ('[' :: rest)) := by
  simp only [sliceHost, withoutPort, Text.find?]
  cases hc : Text.cut? ']' rest with
  | none => rfl
  | some parts =>
    obtain ⟨inside, after⟩ := parts
    -- The slice ends behind the bracket, which is one byte as the other one is.
    have hs := Text.slice?_append [] ('[' :: (inside ++ [']'])) after
    have hw : width ('[' :: (inside ++ [']'])) = width inside + 2 := by
      rw [Text.width_cons, Text.width_append, Nat.add_comm]
      rfl
    rw [hw] at hs
    simpa [Text.eq_of_cut? hc] using hs

theorem sliceHost_eq (host : Text) : sliceHost host = some (withoutPort host) := by
  by_cases hb : ∃ rest, host = '[' :: rest
  · obtain ⟨rest, rfl⟩ := hb
    exact sliceHost_bracketed rest
  · have hn : ∀ rest, host = '[' :: rest → False := fun rest h => hb ⟨rest, h⟩
    rw [sliceHost, withoutPort]
    · exact hn
    · exact hn

/-- The braces of a template are located exactly if they are balanced, and then the outermost ones
are.  No slice of a template or of a host misses the text or cuts a character in two, whatever the
kind of the template is and whether its slash is left off or not. -/
theorem slices_fit (template : Text) (kind : Kind) (strictSlash : Bool) (compiler : Compiler)
    (w : Workshop) (host : Text) :
    ((Template.braces? template).isSome = true ↔ template.Balanced) ∧
    (∀ pairs, Template.braces? template = some pairs → Template.Outermost template pairs) ∧
    sliceCompile template kind strictSlash compiler w
      = (some (compile template kind strictSlash compiler w).1,
          (compile template kind strictSlash compiler w).2) ∧
    sliceHost host = some (withoutPort host) :=
  ⟨Template.isSome_braces? template, fun _ h => Template.outermost_of_braces? h,
    sliceCompile_eq template kind strictSlash compiler w, sliceHost_eq host⟩

def accentedTemplate : Text := "/é{ñ:ö{2}}/à{b}/".toList

theorem accented_slices :
    Template.braces? accentedTemplate = some [(3, 12), (16, 18)] ∧
    Template.Outermost accentedTemplate [(3, 12), (16, 18)] ∧
    (∃ p, sliceCompile accentedTemplate .path true .standard .initial = (some (.ok p), .initial) ∧
      p.names = [['ñ'], ['b']]) ∧
    sliceHost "[é::1]:80".toList = some "[é::1]".toList := by
  have hb : Template.braces? accentedTemplate = some [(3, 12), (16, 18)] := by decide
  obtain ⟨p, hp, hn⟩ :
      ∃ p, compile accentedTemplate .path true .standard .initial = (.ok p, .initial) ∧
        p.names = [['ñ'], ['b']] := ⟨_, rfl, rfl⟩
  obtain ⟨-, ho, hc, hh⟩ :=
    slices_fit accentedTemplate .path true .standard .initial "[é::1]:80".toList
  refine ⟨hb, ho _ hb, ⟨p, ?_, hn⟩, hh⟩
  rw [hc, hp]

end Pattern
end HttpRouter
