import HttpRouter.Route.Build

set_option autoImplicit false

namespace HttpRouter

theorem Matcher.sublist_insertByRank (m : Matcher) (ms : List Matcher) :
    ms.Sublist (m.insertByRank ms) := by
  induction ms with
  | nil => exact List.nil_sublist _
  | cons other rest ih =>
    simp only [insertByRank]
    split
    · exact ih.cons_cons other
    · exact List.sublist_cons_self m _

def Settings.insertAll (added ms : List Matcher) : List Matcher :=
  added.foldl (fun ms m => m.insertByRank ms) ms

theorem Settings.insertAll_append (added more ms : List Matcher) :
    insertAll (added ++ more) ms = insertAll more (insertAll added ms) := List.foldl_append

theorem Settings.sublist_insertAll (added ms : List Matcher) :
    ms.Sublist (Settings.insertAll added ms) := by
  induction added generalizing ms with
  | nil => exact List.Sublist.refl ms
  | cons m rest ih => exact (m.sublist_insertByRank ms).trans (ih (m.insertByRank ms))

namespace Settings

def offer (s : Settings) (template : Text) (kind : Pattern.Kind) : Build (Except Error Pattern) :=
  fun w => match s.fullTemplate template kind with
  | .error e => (.error e, w)
  | .ok full =>
    match Pattern.compile full kind s.strictSlash s.compiler w with
    | (.error e, w) => (.error e, w)
    | (.ok p, w) => ((checkRivals p (s.rivals kind)).map fun () => p, w)

theorem addPattern_eq (s : Settings) (template : Text) (kind : Pattern.Kind) (w : Workshop) :
    s.addPattern template kind w
      = ((s.offer template kind w).1.map s.adopt, (s.offer template kind w).2) := by
  unfold addPattern offer
  cases s.fullTemplate template kind with
  | error e => rfl
  | ok full =>
    simp only
    generalize Pattern.compile full kind s.strictSlash s.compiler w = compiled
    obtain ⟨answer, after⟩ := compiled
    cases answer with
    | error e => rfl
    | ok p =>
      simp only
      cases checkRivals p (s.rivals kind) <;> rfl

end Settings

namespace Route

structure Grows (before after : Route) : Prop where
  subrouter : after.subrouter? = before.subrouter?
  matchers : ∃ added,
    after.settings.matchers = Settings.insertAll added before.settings.matchers

namespace Grows

theorem refl (route : Route) : Grows route route := ⟨rfl, [], rfl⟩

theorem trans {first second third : Route} (h : Grows first second) (g : Grows second third) :
    Grows first third := by
  obtain ⟨before, hb⟩ := h.matchers
  obtain ⟨added, ha⟩ := g.matchers
  refine ⟨g.subrouter.trans h.subrouter, before ++ added, ?_⟩
  rw [ha, hb, Settings.insertAll_append]

theorem sublist {before after : Route} (h : Grows before after) :
    before.settings.matchers.Sublist after.settings.matchers := by
  obtain ⟨added, ha⟩ := h.matchers
  rw [ha]
  exact Settings.sublist_insertAll added _

end Grows

theorem fail_grows (route : Route) : Grows route route.fail := ⟨rfl, [], rfl⟩

theorem addMatcher_grows (route : Route) (m : Matcher) : Grows route (route.addMatcher m) :=
  ⟨rfl, [m], rfl⟩

theorem adopt_matchers (s : Settings) (pattern : Pattern) :
    ∃ m : Matcher, (s.adopt pattern).matchers = m.insertByRank s.matchers := by
  unfold Settings.adopt
  cases pattern.kind <;> exact ⟨_, rfl⟩

theorem addPattern_eq_ok {s after : Settings} {template : Text} {kind : Pattern.Kind}
    {w w' : Workshop} (h : s.addPattern template kind w = (.ok after, w')) :
    ∃ pattern, after = s.adopt pattern := by
  rw [s.addPattern_eq] at h
  obtain ⟨ha, -⟩ := Prod.mk.inj h
  cases hm : (s.offer template kind w).1 with
  | error e =>
    rw [hm] at ha
    cases ha
  | ok pattern =>
    rw [hm] at ha
    cases ha
    exact ⟨pattern, rfl⟩

theorem addPattern_grows (route : Route) (template : Text) (kind : Pattern.Kind) (w : Workshop) :
    Grows route (route.addPattern template kind w).1.2 := by
  unfold Route.addPattern
  split
  · exact fail_grows route
  · rename_i after _ h
    obtain ⟨pattern, rfl⟩ := addPattern_eq_ok h
    obtain ⟨m, hm⟩ := adopt_matchers route.settings pattern
    exact ⟨rfl, [m], hm⟩

theorem addQueries_grows (pairs : List (Text × Text)) (route : Route) (w : Workshop) :
    Grows route (addQueries pairs route w).1.2 := by
  induction pairs generalizing route w with
  | nil => exact .refl route
  | cons pair rest ih =>
    have ha := addPattern_grows route (pair.1 ++ '=' :: pair.2) .query w
    simp only [addQueries]
    generalize route.addPattern (pair.1 ++ '=' :: pair.2) .query w = result at ha
    obtain ⟨⟨answer, next⟩, w'⟩ := result
    cases answer with
    | error e => exact ha
    | ok _ => exact ha.trans (ih next w')

theorem addHeaderExpressions_grows (pairs : List (Text × Text)) (route : Route) (w : Workshop) :
    Grows route (addHeaderExpressions pairs route w).1.2 := by
  unfold addHeaderExpressions
  split
  · exact fail_grows route
  · exact addMatcher_grows route _

theorem withPairs_grows {step : List (Text × Text) → Route → Build (Except Error Unit × Route)}
    (hs : ∀ pairs route w, Grows route (step pairs route w).1.2) (texts : List Text)
    (route : Route) (w : Workshop) : Grows route (withPairs texts route step w).1.2 := by
  unfold withPairs
  cases pairUp texts with
  | error e => exact fail_grows route
  | ok pairs => exact hs pairs route w

theorem apply_grows (step : RouteStep) (route : Route) (w : Workshop) :
    Grows route (Route.apply step route w).1.2 := by
  cases step with
  | path template => exact addPattern_grows route template .path w
  | pathStart template => exact addPattern_grows route template .pathStart w
  | host template => exact addPattern_grows route template .host w
  | queries texts => exact withPairs_grows addQueries_grows texts route w
  | headers texts => exact withPairs_grows (fun _ route _ => addMatcher_grows route _) texts route w
  | headerExpressions texts => exact withPairs_grows addHeaderExpressions_grows texts route w
  | methods accepted => exact addMatcher_grows route _
  | schemes accepted => exact addMatcher_grows route _
  | custom holds => exact addMatcher_grows route _
  | handler h | name n | buildOnly | metadata key value | use m => exact ⟨rfl, [], rfl⟩

theorem applyAll_grows (steps : List RouteStep) (route : Route) (w : Workshop) :
    Grows route (Route.applyAll steps route w).1.2 := by
  induction steps generalizing route w with
  | nil => exact .refl route
  | cons step rest ih =>
    have ha := apply_grows step route w
    rw [Route.applyAll]
    generalize Route.apply step route w = result at ha
    obtain ⟨⟨answer, next⟩, w'⟩ := result
    cases answer with
    | error e => exact ha
    | ok _ => exact ha.trans (ih next w')

end Route
end HttpRouter
