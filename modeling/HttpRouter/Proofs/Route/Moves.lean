import HttpRouter.Proofs.Pattern.Faithful
import HttpRouter.Route.Build

set_option autoImplicit false

namespace HttpRouter

namespace Settings

/-- A pattern that is added was compiled from its whole template and shares no variable with its
rivals. -/
theorem exists_of_addPattern {s after : Settings} {template : Text} {kind : Pattern.Kind}
    {w w' : Workshop} (h : s.addPattern template kind w = (.ok after, w')) :
    ∃ full p, s.fullTemplate template kind = .ok full ∧
      Pattern.compile full kind s.strictSlash s.compiler w = (.ok p, w') ∧
      checkRivals p (s.rivals kind) = .ok () ∧ after = s.adopt p := by
  unfold addPattern at h
  split at h
  · cases h
  · rename_i full hf
    split at h
    · cases h
    · rename_i p v hp
      obtain ⟨ha, rfl⟩ := Prod.mk.inj h
      cases hr : checkRivals p (s.rivals kind) with
      | error e =>
        rw [hr] at ha
        cases ha
      | ok _ =>
        rw [hr] at ha
        cases ha
        exact ⟨full, p, hf, hp, hr, rfl⟩

theorem addPattern_learns {s : Settings} {w : Workshop} (h : s.compiler.Faithful w)
    (template : Text) (kind : Pattern.Kind) : w.Learns (s.addPattern template kind w).2 := by
  unfold addPattern
  split
  · exact .refl w
  · rename_i full _
    have hl := (Pattern.compile_of_faithful h full kind s.strictSlash).2
    split
    · rename_i hp
      rwa [hp] at hl
    · rename_i hp
      rwa [hp] at hl

theorem adopt_kept (s : Settings) (p : Pattern) :
    (s.adopt p).compiler = s.compiler ∧ (s.adopt p).strictSlash = s.strictSlash := by
  unfold adopt
  cases p.kind <;> exact ⟨rfl, rfl⟩

variable (C : Matcher → Prop) (K : Pattern.Kind → Prop)

/-- One move with matchers that satisfy `C` and patterns of kinds that satisfy `K`. -/
inductive Move : Settings → Workshop → Settings → Workshop → Prop
  | matcher {s : Settings} {w : Workshop} {m : Matcher} (hm : C m) : Move s w (s.addMatcher m) w
  | pattern {s after : Settings} {w w' : Workshop} {template : Text} {kind : Pattern.Kind}
      (hk : K kind) (h : s.addPattern template kind w = (.ok after, w')) : Move s w after w'
  | refused {s : Settings} {w w' : Workshop} {template : Text} {kind : Pattern.Kind} {e : Error}
      (h : s.addPattern template kind w = (.error e, w')) : Move s w s w'
  | compile {s : Settings} {w : Workshop} (source : Text) :
      Move s w s (s.compiler.compile source w).2

inductive Moves : Settings → Workshop → Settings → Workshop → Prop
  | refl (s : Settings) (w : Workshop) : Moves s w s w
  | more {s t u : Settings} {w w' w'' : Workshop} (h : Move C K s w t w') (g : Moves t w' u w'') :
      Moves s w u w''

variable {C K}

theorem Move.once {s t : Settings} {w w' : Workshop} (h : Move C K s w t w') :
    Moves C K s w t w' := .more h (.refl t w')

theorem Moves.trans {s t u : Settings} {w w' w'' : Workshop} (h : Moves C K s w t w')
    (g : Moves C K t w' u w'') : Moves C K s w u w'' := by
  induction h with
  | refl => exact g
  | more h _ ih => exact .more h (ih g)

theorem Move.kept {s t : Settings} {w w' : Workshop} (h : Move C K s w t w') :
    t.compiler = s.compiler ∧ t.strictSlash = s.strictSlash := by
  cases h with
  | matcher hm => exact ⟨rfl, rfl⟩
  | pattern hk h =>
    obtain ⟨full, p, -, -, -, rfl⟩ := exists_of_addPattern h
    exact adopt_kept s p
  | refused h => exact ⟨rfl, rfl⟩
  | compile source => exact ⟨rfl, rfl⟩

theorem Move.learns {s t : Settings} {w w' : Workshop} (h : Move C K s w t w')
    (hc : s.compiler.Faithful w) : w.Learns w' := by
  cases h with
  | matcher hm => exact .refl w
  | pattern hk h =>
    rename_i template kind
    have hl := addPattern_learns hc template kind
    rwa [h] at hl
  | refused h =>
    rename_i template kind _
    have hl := addPattern_learns hc template kind
    rwa [h] at hl
  | compile source => exact (Compiler.compile_of_faithful hc source).2

theorem Moves.kept {s t : Settings} {w w' : Workshop} (h : Moves C K s w t w') :
    t.compiler = s.compiler ∧ t.strictSlash = s.strictSlash := by
  induction h with
  | refl => exact ⟨rfl, rfl⟩
  | more h _ ih =>
    obtain ⟨hc, hs⟩ := h.kept
    exact ⟨ih.1.trans hc, ih.2.trans hs⟩

/-- A faithful compiler stays faithful. -/
theorem Moves.faithful {s t : Settings} {w w' : Workshop} (h : Moves C K s w t w')
    (hc : s.compiler.Faithful w) : t.compiler.Faithful w' := by
  induction h with
  | refl => exact hc
  | more h _ ih => exact ih (h.kept.1 ▸ hc.learns (h.learns hc))

end Settings

def RouteStep.Within (C : Matcher → Prop) (K : Pattern.Kind → Prop) : RouteStep → Prop
  | path _ => K .path
  | pathStart _ => K .pathStart
  | host _ => K .host
  | queries _ => K .query
  | headers _ => ∀ required, C (.headers required)
  | headerExpressions _ => ∀ required, C (.headerExpressions required)
  | methods accepted => C (.methods accepted)
  | schemes accepted => C (.schemes (accepted.map Text.lower))
  | custom holds => C (.custom holds)
  | handler _ | name _ | buildOnly | metadata _ _ | use _ => True

theorem exists_error {answer : Except Error Unit} (h : answer.isOk = false) :
    ∃ e, answer = .error e := by
  cases answer with
  | ok => cases h
  | error e => exact ⟨e, rfl⟩

namespace Route

open Settings (Moves Move)

variable {C : Matcher → Prop} {K : Pattern.Kind → Prop}

structure Configured (C : Matcher → Prop) (K : Pattern.Kind → Prop) (before : Route) (w : Workshop)
    (result : (Except Error Unit × Route) × Workshop) : Prop where
  moves : Moves C K before.settings w result.1.2.settings result.2
  inert : result.1.2.info.inert = (before.info.inert || !result.1.1.isOk)

theorem configured_ok {before after : Route} {w w' : Workshop}
    (hm : Moves C K before.settings w after.settings w')
    (hi : after.info.inert = before.info.inert) :
    Configured C K before w ((.ok (), after), w') := ⟨hm, by simp [hi, Except.isOk, Except.toBool]⟩

theorem configured_fail {before : Route} {w w' : Workshop} {e : Error}
    (hm : Moves C K before.settings w before.settings w') :
    Configured C K before w ((.error e, before.fail), w') :=
  ⟨hm, by simp [Except.isOk, Except.toBool, fail, setInfo, info]⟩

theorem Configured.next {before after : Route} {w w' : Workshop}
    {result : (Except Error Unit × Route) × Workshop}
    (h : Configured C K before w ((.ok (), after), w')) (g : Configured C K after w' result) :
    Configured C K before w result := by
  refine ⟨h.moves.trans g.moves, ?_⟩
  rw [g.inert, h.inert]
  simp [Except.isOk, Except.toBool]

theorem configured_matcher (route : Route) {m : Matcher} (hm : C m) (w : Workshop) :
    Configured C K route w ((.ok (), route.addMatcher m), w) :=
  configured_ok (Move.matcher hm).once rfl

theorem configured_pattern (route : Route) (template : Text) {kind : Pattern.Kind} (hk : K kind)
    (w : Workshop) : Configured C K route w (route.addPattern template kind w) := by
  unfold Route.addPattern
  split
  · rename_i e w' h
    exact configured_fail (Move.refused h).once
  · rename_i after w' h
    exact configured_ok (Move.pattern hk h).once rfl

theorem configured_queries (hk : K .query) (pairs : List (Text × Text)) (route : Route)
    (w : Workshop) : Configured C K route w (addQueries pairs route w) := by
  induction pairs generalizing route w with
  | nil => exact configured_ok (.refl _ w) rfl
  | cons pair rest ih =>
    obtain ⟨key, value⟩ := pair
    have hp := configured_pattern (C := C) route (key ++ '=' :: value) hk w
    rw [addQueries]
    generalize route.addPattern (key ++ '=' :: value) .query w = result at hp
    obtain ⟨⟨answer, next⟩, w'⟩ := result
    cases answer with
    | error e => exact hp
    | ok _ => exact hp.next (ih next w')

theorem moves_compileHeaders (s : Settings) (pairs : List (Text × Text)) (w : Workshop) :
    Moves C K s w s (compileHeaders s.compiler pairs w).2 := by
  induction pairs generalizing w with
  | nil => exact .refl s w
  | cons pair rest ih =>
    obtain ⟨name, source⟩ := pair
    unfold compileHeaders
    split
    · exact ih w
    · have hc : Move C K s w s (s.compiler.compile source w).2 := .compile source
      generalize s.compiler.compile source w = result at hc
      obtain ⟨expression, w'⟩ := result
      cases expression with
      | none => exact hc.once
      | some expression => exact hc.once.trans (ih w')

theorem configured_headerExpressions (hc : ∀ required, C (.headerExpressions required))
    (pairs : List (Text × Text)) (route : Route) (w : Workshop) :
    Configured C K route w (addHeaderExpressions pairs route w) := by
  have hm := moves_compileHeaders (C := C) (K := K) route.settings pairs w
  unfold addHeaderExpressions
  generalize compileHeaders route.settings.compiler pairs w = result at hm
  obtain ⟨required, w'⟩ := result
  cases required with
  | error e => exact configured_fail hm
  | ok required => exact configured_ok (hm.trans (Move.matcher (hc required)).once) rfl

theorem configured_pairs {step : List (Text × Text) → Route → Build (Except Error Unit × Route)}
    (hs : ∀ pairs route w, Configured C K route w (step pairs route w)) (texts : List Text)
    (route : Route) (w : Workshop) : Configured C K route w (withPairs texts route step w) := by
  unfold withPairs
  cases pairUp texts with
  | error e => exact configured_fail (.refl _ w)
  | ok pairs => exact hs pairs route w

/-- All that a step can do. -/
theorem apply_configured {step : RouteStep} (hs : step.Within C K) (route : Route) (w : Workshop) :
    Configured C K route w (Route.apply step route w) := by
  cases step with
  | path template => exact configured_pattern route template hs w
  | pathStart template => exact configured_pattern route template hs w
  | host template => exact configured_pattern route template hs w
  | queries texts => exact configured_pairs (configured_queries hs) texts route w
  | headers texts =>
    exact configured_pairs (fun pairs route w => configured_matcher route (hs pairs) w)
      texts route w
  | headerExpressions texts =>
    exact configured_pairs (configured_headerExpressions hs) texts route w
  | methods accepted => exact configured_matcher route hs w
  | schemes accepted => exact configured_matcher route hs w
  | custom holds => exact configured_matcher route hs w
  | handler h | name n | buildOnly | metadata key value | use m =>
    exact configured_ok (.refl _ w) rfl

theorem applyAll_configured {steps : List RouteStep} (hs : ∀ step ∈ steps, step.Within C K)
    (route : Route) (w : Workshop) : Configured C K route w (Route.applyAll steps route w) := by
  induction steps generalizing route w with
  | nil => exact configured_ok (.refl _ w) rfl
  | cons step rest ih =>
    have ha := apply_configured (hs step List.mem_cons_self) route w
    rw [Route.applyAll]
    generalize Route.apply step route w = result at ha
    obtain ⟨⟨answer, next⟩, w'⟩ := result
    cases answer with
    | error e => exact ha
    | ok _ => exact ha.next (ih (fun other ho => hs other (List.mem_cons_of_mem step ho)) next w')

end Route
end HttpRouter
