import HttpRouter.Proofs.Route.Gains
import HttpRouter.Proofs.Router.History

set_option autoImplicit false

namespace HttpRouter.Route

structure Took (route : Route) (parts : List (Option Matcher))
    (result : (Except Error Unit × Route) × Workshop) : Prop where
  done : route.settings.Fits parts →
    result.1 = (.ok (), route.setSettings (route.settings.gainAll (parts.filterMap id)))
  refused : ¬ route.settings.Fits parts → result.1.1.isOk = false
  steady : route.settings.compiler.Steady result.2

variable {route : Route} {w : Workshop}

theorem took_of_error {parts : List (Option Matcher)} (h : ¬ route.settings.Fits parts)
    (hs : route.settings.compiler.Steady w) (e : Error) :
    route.Took parts ((.error e, route.fail), w) :=
  ⟨fun hf => absurd hf h, fun _ => rfl, hs⟩

theorem took_bare (hs : route.settings.compiler.Steady w) {m : Matcher} (h : m.isBare = true) :
    route.Took [some m] ((.ok (), route.addMatcher m), w) := by
  have hf := route.settings.fits_bare h
  refine ⟨fun _ => ?_, fun hn => absurd hf hn, hs⟩
  rw [addMatcher, Settings.addMatcher_eq_gain _ h]
  rfl

theorem took_pattern (hs : route.settings.compiler.Steady w) (template : Text)
    {kind : Pattern.Kind} (hk : route.settings.Vacant kind) :
    route.Took [Settings.part route.settings.compiler.meaning route.settings.strictSlash template
      kind] (route.addPattern template kind w) := by
  rw [addPattern, Settings.addPattern, hk.fullTemplate, Settings.part]
  cases Settings.initial.fullTemplate template kind with
  | error e => exact took_of_error (Settings.not_fits_none _) hs e
  | ok full =>
    obtain ⟨hm, hs'⟩ := Pattern.compile_of_steady hs route.settings.strictSlash full kind
    simp only
    rw [← hm]
    generalize Pattern.compile full kind route.settings.strictSlash route.settings.compiler w
      = compiled at hm hs'
    obtain ⟨answer, after⟩ := compiled
    cases answer with
    | error e => exact took_of_error (Settings.not_fits_none _) hs' e
    | ok p =>
      obtain ⟨rfl, hd⟩ := Pattern.labelled_of_meant hm.symm
      have hfits := Settings.fits_matcher_iff hk.free hd
      cases hr : Settings.checkRivals p (route.settings.rivals p.kind) with
      | error e =>
        simp only [hr]
        exact took_of_error (mt hfits.1 (by rw [hr]; nofun)) hs' e
      | ok _ =>
        simp only [hr]
        refine ⟨fun _ => ?_, fun hn => absurd (hfits.2 hr) hn, hs'⟩
        rw [Settings.adopt_eq_gain]
        rfl

/-- What is taken after what was taken before. -/
theorem Took.next {next : Route} {front back : List (Option Matcher)}
    {result : (Except Error Unit × Route) × Workshop}
    (hf : route.settings.Free (front.filterMap id)) (h : route.settings.Fits front)
    (hn : next = route.setSettings (route.settings.gainAll (front.filterMap id)))
    (g : next.Took back result) : route.Took (front ++ back) result := by
  subst hn
  have hiff : route.settings.Fits (front ++ back) ↔ _ := Settings.fits_append hf
  refine ⟨fun hfits => ?_, fun hn => g.refused fun hb => hn (hiff.2 ⟨h, hb⟩), ?_⟩
  · rw [g.done (hiff.1 hfits).2, List.filterMap_append, Settings.gainAll_append]
    rfl
  · have hsteady := g.steady
    rwa [Route.settings, setSettings, setInfo, Route.info, Settings.gainAll_eq] at hsteady

/-- Once something was refused, nothing later counts. -/
theorem Took.stop {front back : List (Option Matcher)}
    {result : (Except Error Unit × Route) × Workshop}
    (hf : route.settings.Free (front.filterMap id)) (h : ¬ route.settings.Fits front)
    (g : route.Took front result) : route.Took (front ++ back) result :=
  ⟨fun hfits => absurd ((Settings.fits_append hf).1 hfits).1 h, fun _ => g.refused h, g.steady⟩

theorem kept_of_eq {next : Route} {ms : List Matcher}
    (h : next = route.setSettings (route.settings.gainAll ms)) :
    next.settings.compiler = route.settings.compiler ∧
      next.settings.strictSlash = route.settings.strictSlash := by
  rw [h, Settings.gainAll_eq]
  exact ⟨rfl, rfl⟩

theorem setSettings_self (route : Route) : route.setSettings route.settings = route := by
  cases route
  rfl

theorem took_nothing (hs : route.settings.compiler.Steady w) :
    route.Took [] ((.ok (), route), w) :=
  ⟨fun _ => congrArg (Except.ok (), ·) route.setSettings_self.symm,
    fun hn => absurd route.settings.fits_nil hn, hs⟩

theorem took_queries (hs : route.settings.compiler.Steady w) (pairs : List (Text × Text)) :
    route.Took (pairs.map fun (key, value) => Settings.part route.settings.compiler.meaning
      route.settings.strictSlash (key ++ '=' :: value) .query) (addQueries pairs route w) := by
  induction pairs generalizing route w with
  | nil => exact took_nothing hs
  | cons pair rest ih =>
    obtain ⟨key, value⟩ := pair
    have vacant : route.settings.Vacant .query := ⟨nofun, nofun⟩
    have ha := took_pattern hs (key ++ '=' :: value) vacant
    simp only [List.map_cons, addQueries]
    generalize route.addPattern (key ++ '=' :: value) .query w = result at ha
    generalize hpart : Settings.part route.settings.compiler.meaning route.settings.strictSlash
      (key ++ '=' :: value) .query = part at ha ⊢
    change route.Took ([part] ++ _) _
    have hfree : route.settings.Free ([part].filterMap id) := hpart ▸ vacant.free_part
    obtain ⟨⟨answer, next⟩, after⟩ := result
    by_cases hfits : route.settings.Fits [part]
    · obtain ⟨rfl, hnext⟩ := Prod.mk.inj (ha.done hfits)
      obtain ⟨hcompiler, hstrict⟩ := kept_of_eq hnext
      have hrest := ih (hcompiler ▸ ha.steady)
      rw [hcompiler, hstrict] at hrest
      exact Took.next hfree hfits hnext hrest
    · obtain ⟨e, rfl⟩ := exists_error (ha.refused hfits)
      exact ha.stop hfree hfits

theorem compileHeaders_of_steady {c : Compiler} (hs : c.Steady w) (pairs : List (Text × Text))
    (v : Workshop) :
    (compileHeaders c pairs w).1 = (compileHeaders (.supplied c.meaning) pairs v).1 ∧
      c.Steady (compileHeaders c pairs w).2 := by
  induction pairs generalizing w v with
  | nil => exact ⟨rfl, hs⟩
  | cons pair rest ih =>
    obtain ⟨name, source⟩ := pair
    unfold compileHeaders
    cases hsource : source.isEmpty with
    | true =>
      obtain ⟨ha, hs'⟩ := ih hs v
      exact ⟨congrArg (Except.map ((name, none) :: ·)) ha, hs'⟩
    | false =>
      obtain ⟨hm, hs'⟩ := hs.compile source
      simp only [Bool.false_eq_true, if_false]
      generalize c.compile source w = made at hm hs'
      obtain ⟨answer, after⟩ := made
      obtain rfl : answer = c.meaning source := hm
      simp only [Compiler.compile]
      cases hsource : c.meaning source with
      | none => exact ⟨rfl, hs'⟩
      | some expression =>
        obtain ⟨ha, hs''⟩ := ih hs' (v.record source)
        exact ⟨congrArg (Except.map ((name, some expression) :: ·)) ha, hs''⟩

theorem took_headerExpressions (hs : route.settings.compiler.Steady w)
    (pairs : List (Text × Text)) :
    route.Took [(compileHeaders (.supplied route.settings.compiler.meaning) pairs
      .initial).1.toOption.map .headerExpressions] (addHeaderExpressions pairs route w) := by
  obtain ⟨hm, hs'⟩ := compileHeaders_of_steady hs pairs .initial
  rw [← hm, addHeaderExpressions]
  generalize compileHeaders route.settings.compiler pairs w = compiled at hs'
  obtain ⟨answer, after⟩ := compiled
  cases answer with
  | error e => exact took_of_error (Settings.not_fits_none _) hs' e
  | ok required => exact took_bare hs' rfl

theorem apply_took {step : RouteStep} (hn : step.narrows = true)
    (hs : route.settings.compiler.Steady w)
    (hpath : step.setsPath = true → route.settings.path = none)
    (hhost : step.setsHost = true → route.settings.host = none) :
    route.Took (step.parts route.settings.compiler.meaning route.settings.strictSlash)
      (Route.apply step route w) := by
  cases step with
  | path template => exact took_pattern hs template ⟨fun _ => hpath rfl, nofun⟩
  | pathStart template => exact took_pattern hs template ⟨fun _ => hpath rfl, nofun⟩
  | host template => exact took_pattern hs template ⟨nofun, fun _ => hhost rfl⟩
  | queries texts =>
    simp only [RouteStep.parts, apply, withPairs]
    cases pairUp texts with
    | error e => exact took_of_error (Settings.not_fits_none _) hs e
    | ok pairs => exact took_queries hs pairs
  | headers texts =>
    simp only [RouteStep.parts, apply, withPairs]
    cases pairUp texts with
    | error e => exact took_of_error (Settings.not_fits_none _) hs e
    | ok pairs => exact took_bare hs rfl
  | headerExpressions texts =>
    simp only [RouteStep.parts, apply, withPairs]
    cases pairUp texts with
    | error e => exact took_of_error (Settings.not_fits_none _) hs e
    | ok pairs => exact took_headerExpressions hs pairs
  | methods accepted => exact took_bare hs rfl
  | schemes accepted => exact took_bare hs rfl
  | custom holds => exact took_bare hs rfl
  | handler | name | buildOnly | metadata | use => cases hn

def applyEach : List RouteStep → Route → Build Route
  | [], route, w => (route, w)
  | step :: rest, route, w =>
    let ((_, route), w) := Route.apply step route w
    applyEach rest route w

theorem inert_applyEach {steps : List RouteStep} (h : route.info.inert = true) :
    (applyEach steps route w).1.info.inert = true := by
  induction steps generalizing route w with
  | nil => exact h
  | cons step rest ih =>
    have hinert := (apply_configured step.within_bare route w).inert
    rw [h, Bool.true_or] at hinert
    exact ih hinert

def parts (route : Route) (steps : List RouteStep) : List (Option Matcher) :=
  steps.flatMap (RouteStep.parts route.settings.compiler.meaning route.settings.strictSlash)

/-- The steps bring the matchers that they stand for if they all succeed, and otherwise leave the
route inert. -/
theorem applyEach_took {steps : List RouteStep} (hn : ∀ step ∈ steps, step.narrows = true)
    (hs : route.settings.compiler.Steady w) (hlive : route.info.inert = false)
    (hspaced : route.settings.Spaced steps) :
    (route.settings.Fits (route.parts steps) → (applyEach steps route w).1
      = route.setSettings (route.settings.gainAll ((route.parts steps).filterMap id))) ∧
    (¬ route.settings.Fits (route.parts steps) →
      (applyEach steps route w).1.info.inert = true) := by
  induction steps generalizing route w with
  | nil => exact ⟨fun _ => route.setSettings_self.symm, fun h => absurd route.settings.fits_nil h⟩
  | cons step rest ih =>
    obtain ⟨hfree, hspaced'⟩ := hspaced.next route.settings.compiler.meaning
      route.settings.strictSlash
    have hcons : route.parts (step :: rest) = step.parts route.settings.compiler.meaning
        route.settings.strictSlash ++ route.parts rest := rfl
    have ha := apply_took (hn step List.mem_cons_self) hs hspaced.vacant.1 hspaced.vacant.2
    have hinert := (apply_configured step.within_bare route w).inert
    generalize step.parts route.settings.compiler.meaning route.settings.strictSlash = front
      at hcons hfree hspaced' ha
    have hiff : route.settings.Fits (route.parts (step :: rest)) ↔ _ :=
      hcons ▸ Settings.fits_append hfree
    rw [applyEach]
    generalize Route.apply step route w = result at ha hinert
    obtain ⟨⟨answer, next⟩, after⟩ := result
    by_cases hfits : route.settings.Fits front
    · obtain ⟨rfl, hnext⟩ := Prod.mk.inj (ha.done hfits)
      obtain ⟨hcompiler, hstrict⟩ := kept_of_eq hnext
      have hsettings : next.settings = route.settings.gainAll (front.filterMap id) := by
        rw [hnext]
        rfl
      have hparts : next.parts rest = route.parts rest := by
        rw [parts, hcompiler, hstrict]
        rfl
      have hlive' : next.info.inert = false := (congrArg (·.info.inert) hnext).trans hlive
      obtain ⟨hall, hsome⟩ := ih (fun other ho => hn other (List.mem_cons_of_mem step ho))
        (hcompiler ▸ ha.steady) hlive' (hsettings ▸ hspaced')
      rw [hparts, hsettings] at hall hsome
      refine ⟨fun h => ?_, fun h => hsome fun hb => h (hiff.2 ⟨hfits, hb⟩)⟩
      rw [hall (hiff.1 h).2, hnext, ← Settings.gainAll_append, ← List.filterMap_append, hcons]
      rfl
    · refine ⟨fun h => absurd (hiff.1 h).1 hfits, fun _ => inert_applyEach ?_⟩
      rw [hinert, ha.refused hfits, Bool.not_false, Bool.or_true]

end HttpRouter.Route
