import HttpRouter.Proofs.Router.FirstMatch
import HttpRouter.Proofs.Router.History

set_option autoImplicit false

/-!
# Allowed methods

What is reported when only the method is wrong.  A leaf fits a request if nothing but the method can
stand in its way.  If no leaf accepts a request, dispatch reports the methods of the leaves that
fit, each once.  The leaves that fit do not depend on the method, so that the report lists exactly
the methods which lead to a match.
-/
namespace HttpRouter

section unite

theorem unite_cons (known : List Method) (m : Method) (more : List Method) :
    unite known (m :: more) = unite (if known.contains m then known else known ++ [m]) more := rfl

theorem unite_append (known more others : List Method) :
    unite known (more ++ others) = unite (unite known more) others := by
  simp [unite]

theorem mem_unite (known more : List Method) (m : Method) :
    m ∈ unite known more ↔ m ∈ known ∨ m ∈ more := by
  induction more generalizing known with
  | nil => simp [unite]
  | cons first rest ih =>
    rw [unite_cons, ih]
    by_cases h : first ∈ known
    · simp only [List.contains_eq_mem, h, decide_true, if_true, List.mem_cons]
      constructor
      · rintro (hk | hr)
        · exact .inl hk
        · exact .inr (.inr hr)
      · rintro (hk | rfl | hr)
        · exact .inl hk
        · exact .inl h
        · exact .inr hr
    · simp [h, or_assoc]

theorem nodup_unite {known : List Method} (more : List Method) (h : known.Nodup) :
    (unite known more).Nodup := by
  induction more generalizing known with
  | nil => exact h
  | cons first rest ih =>
    rw [unite_cons]
    apply ih
    by_cases hf : first ∈ known
    · simpa [hf] using h
    · simp only [List.contains_eq_mem, hf, decide_false, Bool.false_eq_true, if_false]
      refine List.nodup_append.2 ⟨h, by simp, ?_⟩
      intro a ha b hb
      rw [List.mem_singleton.1 hb]
      exact fun he => hf (he ▸ ha)

theorem eq_nil_of_unite {more : List Method} (h : unite [] more = []) : more = [] := by
  refine List.eq_nil_iff_forall_not_mem.2 fun m hm => ?_
  have hu := (mem_unite [] more m).2 (.inr hm)
  rw [h] at hu
  cases hu

theorem unite_unite (known more others : List Method) :
    unite known (unite more others) = unite (unite known more) others := by
  induction others generalizing more with
  | nil => rfl
  | cons first rest ih =>
    rw [unite_cons more, ih]
    by_cases hf : first ∈ more
    · have hk : first ∈ unite known more := (mem_unite known more first).2 (.inr hf)
      simp [unite_cons, hf, hk]
    · simp only [List.contains_eq_mem, hf, decide_false, Bool.false_eq_true, if_false]
      rw [unite_append]
      exact (unite_append (unite known more) [first] rest).symm

end unite

namespace Matcher

def IgnoresMethod : Matcher → Prop
  | custom holds => ∀ request method, holds (request.withMethod method) = holds request
  | _ => True

theorem rejects_withMethod {m : Matcher} (h : m.IgnoresMethod) (request : Request)
    (method : Method) : m.rejects (request.withMethod method) = m.rejects request := by
  cases m with
  | custom holds => simp only [rejects, evaluate, h request method]
  | methods accepted =>
    simp only [rejects, evaluate]
    split <;> split <;> rfl
  | _ => rfl

theorem accepts_eq (m : Matcher) (request : Request) :
    m.accepts request = (!m.rejects request && (m.methods?.all (·.contains request.method))) := by
  unfold accepts rejects
  cases he : m.evaluate request .empty with
  | matched after =>
    cases m with
    | methods accepted =>
      by_cases hm : request.method ∈ accepted
      · simp [methods?, hm]
      · simp [evaluate, hm] at he
    | _ => rfl
  | rejected => rfl
  | methodMismatch accepted =>
    obtain ⟨rfl, hc⟩ := evaluate_methodMismatch he
    simp [methods?, hc]

end Matcher

namespace Settings

def takes (s : Settings) (method : Method) : Bool :=
  s.matchers.all fun m => m.methods?.all (·.contains method)

theorem takes_eq (s : Settings) (method : Method) :
    s.takes method = (s.matchers.filterMap Matcher.methods?).all (·.contains method) := by
  unfold takes
  induction s.matchers with
  | nil => rfl
  | cons m rest ih =>
    rw [List.all_cons, ih, List.filterMap_cons]
    cases m.methods? <;> simp

theorem mem_narrowed (method : Method) (first : List Method) (others : List (List Method)) :
    method ∈ others.foldl (fun kept accepted => kept.filter accepted.contains) first ↔
      method ∈ first ∧ others.all (·.contains method) = true := by
  induction others generalizing first with
  | nil => simp
  | cons accepted rest ih =>
    rw [List.foldl_cons, ih, List.mem_filter, List.all_cons, Bool.and_eq_true, and_assoc]

theorem takes_iff_mem (s : Settings) (method : Method) :
    s.takes method = true ↔ ∀ methods, s.methods? = some methods → method ∈ methods := by
  rw [takes_eq]
  unfold methods?
  cases s.matchers.filterMap Matcher.methods? with
  | nil => simp
  | cons first others =>
    simp only [Option.some.injEq, forall_eq', mem_narrowed, List.all_cons, Bool.and_eq_true,
      List.contains_eq_mem, decide_eq_true_eq]

theorem mem_methods_iff (s : Settings) (method : Method) :
    method ∈ s.methods?.getD [] ↔
      (∃ m ∈ s.matchers, m.methods?.isSome = true) ∧ s.takes method = true := by
  have hs : (∃ m ∈ s.matchers, m.methods?.isSome = true) ↔ s.methods?.isSome = true := by
    have hf : s.methods?.isSome = true ↔ s.matchers.filterMap Matcher.methods? ≠ [] := by
      unfold methods?
      cases s.matchers.filterMap Matcher.methods? <;> simp
    simp [hf, List.filterMap_eq_nil_iff, Option.isSome_iff_ne_none]
  rw [hs, takes_iff_mem]
  cases s.methods? <;> simp

theorem exists_methods_of_not_takes {s : Settings} {method : Method}
    (h : s.takes method = false) : ∃ methods, s.methods? = some methods := by
  cases hm : s.methods? with
  | none =>
    have ht := (takes_iff_mem s method).2 (by rw [hm]; nofun)
    rw [h] at ht
    cases ht
  | some methods => exact ⟨methods, rfl⟩

theorem all_accept_iff (s : Settings) (request : Request) :
    (∀ m ∈ s.matchers, m.accepts request = true) ↔
      (∀ m ∈ s.matchers, m.rejects request = false) ∧ s.takes request.method = true := by
  simp only [takes, List.all_eq_true, Matcher.accepts_eq, Bool.and_eq_true, Bool.not_eq_true']
  exact ⟨fun h => ⟨fun m hm => (h m hm).1, fun m hm => (h m hm).2⟩,
    fun h m hm => ⟨h.1 m hm, h.2 m hm⟩⟩

end Settings

namespace RouteInfo

def active (info : RouteInfo) : Bool := !info.buildOnly && !info.inert

theorem admits_iff (info : RouteInfo) (request : Request) :
    info.admits request = true ↔
      info.active = true ∧ ∀ m ∈ info.settings.matchers, m.accepts request = true := by
  simp only [admits, active, Bool.and_eq_true, List.all_eq_true]

theorem admits_of_not_rejected {info : RouteInfo} {request : Request} (ha : info.active = true)
    (hr : ∀ m ∈ info.settings.matchers, m.rejects request = false) :
    info.admits request = info.settings.takes request.method := by
  rw [Bool.eq_iff_iff, admits_iff, Settings.all_accept_iff]
  exact ⟨fun h => h.2.2, fun h => ⟨ha, hr, h⟩⟩

theorem active_iff (info : RouteInfo) :
    info.active = true ↔ ¬(info.buildOnly || info.inert) = true := by
  unfold active
  cases info.buildOnly <;> cases info.inert <;> decide

end RouteInfo

namespace Leaf

def active (leaf : Leaf) : Bool := leaf.route.info.active && leaf.above.all RouteInfo.active

/-- Nothing but the method can keep the leaf from accepting the request. -/
def fits (request : Request) (leaf : Leaf) : Bool :=
  leaf.active && leaf.route.settings.matchers.all fun m => !m.rejects request

def allowed (leaf : Leaf) : List Method := leaf.route.settings.methods?.getD []

def Inherits (leaf : Leaf) : Prop :=
  ∀ info ∈ leaf.above, info.settings.matchers ⊆ leaf.route.settings.matchers

theorem accepts_iff {leaf : Leaf} (hi : leaf.Inherits) (request : Request) :
    leaf.accepts request = true ↔
      leaf.fits request = true ∧ leaf.route.settings.takes request.method = true ∧
        leaf.route.handler?.isSome = true := by
  have ha : leaf.accepts request = true ↔ leaf.active = true ∧
      (∀ m ∈ leaf.route.settings.matchers, m.accepts request = true) ∧
        leaf.route.handler?.isSome = true := by
    simp only [accepts, active, Bool.and_eq_true, List.all_eq_true, RouteInfo.admits_iff]
    constructor
    · rintro ⟨⟨⟨hl, hr⟩, hu⟩, hh⟩
      exact ⟨⟨hl, fun info h => (hu info h).1⟩, hr, hh⟩
    · rintro ⟨⟨hl, hu⟩, hr, hh⟩
      exact ⟨⟨⟨hl, hr⟩, fun info h => ⟨hu info h, fun m hm => hr m (hi info h hm)⟩⟩, hh⟩
  rw [ha, Settings.all_accept_iff]
  simp only [fits, Bool.and_eq_true, List.all_eq_true, Bool.not_eq_true', and_assoc]

theorem fits_mk_iff (route : Route) (request : Request) :
    fits request ⟨route, [], []⟩ = true ↔
      route.info.active = true ∧ ∀ m ∈ route.settings.matchers, m.rejects request = false := by
  simp only [fits, active, List.all_nil, Bool.and_true, Bool.and_eq_true, List.all_eq_true,
    Bool.not_eq_true']

theorem fits_withMethod {leaf : Leaf}
    (h : ∀ m ∈ leaf.route.settings.matchers, m.IgnoresMethod) (request : Request)
    (method : Method) : leaf.fits (request.withMethod method) = leaf.fits request := by
  unfold fits
  congr 1
  rw [Bool.eq_iff_iff, List.all_eq_true, List.all_eq_true]
  refine forall₂_congr fun m hm => ?_
  rw [Matcher.rejects_withMethod (h m hm)]

theorem accepts_withMethod_iff {leaf : Leaf}
    (handled : leaf.active = true → leaf.route.handler?.isSome = true) (inherits : leaf.Inherits)
    (blind : ∀ m ∈ leaf.route.settings.matchers, m.IgnoresMethod) (request : Request)
    (method : Method) :
    leaf.accepts (request.withMethod method) = true ↔
      leaf.fits request = true ∧ leaf.route.settings.takes method = true := by
  rw [accepts_iff inherits, fits_withMethod blind]
  refine and_congr_right fun hf => and_iff_left ?_
  rw [fits, Bool.and_eq_true] at hf
  exact handled hf.1

def gathered (request : Request) (leaves : List Leaf) : List Method :=
  (leaves.filter (fits request)).flatMap allowed

theorem gathered_append (request : Request) (leaves others : List Leaf) :
    gathered request (leaves ++ others) = gathered request leaves ++ gathered request others := by
  simp [gathered]

theorem mem_gathered (request : Request) (leaves : List Leaf) (method : Method) :
    method ∈ gathered request leaves ↔
      ∃ leaf ∈ leaves, leaf.fits request = true ∧ method ∈ leaf.allowed := by
  simp only [gathered, List.mem_flatMap, List.mem_filter, and_assoc]

theorem gathered_withMethod {leaves : List Leaf}
    (h : ∀ leaf ∈ leaves, ∀ m ∈ leaf.route.settings.matchers, m.IgnoresMethod)
    (request : Request) (method : Method) :
    gathered (request.withMethod method) leaves = gathered request leaves := by
  unfold gathered
  congr 1
  exact List.filter_congr fun leaf hl => fits_withMethod (h leaf hl) request method

theorem gathered_within (request : Request) (leaves : List Leaf) (router : Router) :
    gathered request (leaves.map (·.within router)) = gathered request leaves := by
  unfold gathered
  rw [List.filter_map, List.flatMap_map]
  rfl

theorem fits_under (leaf : Leaf) (info : RouteInfo) (request : Request) :
    (leaf.under info).fits request = (leaf.fits request && info.active) := by
  simp only [fits, active, under, List.all_append, List.all_cons, List.all_nil, Bool.and_true]
  cases leaf.route.info.active <;> cases leaf.above.all RouteInfo.active <;>
    cases info.active <;> simp

theorem gathered_under {info : RouteInfo} (ha : info.active = true) (request : Request)
    (leaves : List Leaf) :
    gathered request (leaves.map (·.under info)) = gathered request leaves := by
  unfold gathered
  rw [List.filter_map, List.flatMap_map]
  congr 1
  refine List.filter_congr fun leaf _ => ?_
  rw [Function.comp, fits_under, ha, Bool.and_true]

/-- The outcome is a miss or a wrong method, and adds the methods that the leaves report. -/
def Reports (request : Request) (leaves : List Leaf) (outcome : Outcome) : Prop :=
  ∃ methods, (outcome = .methodMismatch methods ∨ outcome = .notFound ∧ methods = []) ∧
    ∀ known, unite known methods = unite known (gathered request leaves)

theorem reports_notFound {request : Request} {leaves : List Leaf}
    (h : ∀ leaf ∈ leaves, leaf.fits request = false) : Reports request leaves .notFound := by
  have hg : gathered request leaves = [] := by
    have hf : leaves.filter (fits request) = [] := by
      rw [List.filter_eq_nil_iff]
      intro leaf hl
      simp [h leaf hl]
    rw [gathered, hf, List.flatMap_nil]
  exact ⟨[], .inr ⟨rfl, rfl⟩, fun known => by rw [hg]⟩

theorem reports_ofAllowed (request : Request) (leaves : List Leaf) :
    Reports request leaves (.ofAllowed (unite [] (gathered request leaves))) := by
  have hu : ∀ known, unite known (unite [] (gathered request leaves))
      = unite known (gathered request leaves) := fun known => unite_unite known [] _
  cases hg : unite [] (gathered request leaves) with
  | nil => exact ⟨[], .inr ⟨rfl, rfl⟩, fun known => by rw [← hu known, hg]⟩
  | cons m rest => exact ⟨m :: rest, .inl rfl, fun known => by rw [← hu known, hg]⟩

theorem scanRoutes_of_reports {request : Request} {routes : List Route}
    (h : ∀ route ∈ routes, Reports request route.leaves (route.evaluate request))
    (known : List Method) :
    Router.scanRoutes request known routes
      = .ofAllowed (unite known (gathered request (routes.flatMap Route.leaves))) := by
  induction routes generalizing known with
  | nil => rfl
  | cons route rest ih =>
    obtain ⟨methods, hr, hu⟩ := h route List.mem_cons_self
    have later := ih fun other ho => h other (List.mem_cons_of_mem _ ho)
    rw [Router.scanRoutes, List.flatMap_cons, gathered_append, unite_append, ← hu]
    rcases hr with hr | ⟨hr, rfl⟩
    · rw [hr]
      exact later _
    · rw [hr]
      exact later _

end Leaf

namespace Route

variable {info : RouteInfo} {request : Request}

theorem evaluate_of_inactive (h : info.active = false) (handler : Option Handler)
    (middleware : List Middleware) (subrouter : Option Router) :
    Route.evaluate request (.mk info handler middleware subrouter) = .notFound := by
  have hl : (info.buildOnly || info.inert) = true := by
    rw [← Decidable.not_not (p := _ = true), ← RouteInfo.active_iff, h]
    exact Bool.false_ne_true
  rw [Route.evaluate, if_pos hl]

theorem evaluate_of_rejects {m : Matcher} (hm : m ∈ info.settings.matchers)
    (hr : m.rejects request = true) (handler : Option Handler) (middleware : List Middleware)
    (subrouter : Option Router) :
    Route.evaluate request (.mk info handler middleware subrouter) = .notFound := by
  have hj := (Settings.judge_eq_none request _ .empty false).2 ⟨m, hm, hr⟩
  rw [Route.evaluate, hj]
  split <;> rfl

theorem evaluate_of_fits (ha : info.active = true)
    (hr : ∀ m ∈ info.settings.matchers, m.rejects request = false) (handler : Option Handler)
    (middleware : List Middleware) (subrouter : Option Router) :
    ∃ vars, Route.evaluate request (.mk info handler middleware subrouter) =
      match subrouter with
      | some router =>
        Route.delegate info vars (!info.admits request) (Router.scan request router)
      | none =>
        if info.admits request then Route.answer (.mk info handler middleware none) request vars
        else Route.mismatch info := by
  have hl := (RouteInfo.active_iff info).1 ha
  cases hj : Settings.judge request info.settings.matchers .empty false with
  | none =>
    obtain ⟨m, hm, hm'⟩ := (Settings.judge_eq_none request _ .empty false).1 hj
    simp [hr m hm] at hm'
  | some judged =>
    obtain ⟨vars, wrong⟩ := judged
    obtain rfl : wrong = !info.admits request := by
      have ha' : info.admits request = (info.active && info.settings.matchers.all
        (·.accepts request)) := rfl
      rw [Settings.judge_wrong hj, ha', ha, Bool.false_or, Bool.true_and,
        List.not_all_eq_any_not]
    refine ⟨vars, ?_⟩
    rw [Route.evaluate, if_neg hl, hj]
    cases subrouter with
    | some router => rfl
    | none => cases info.admits request <;> rfl

/-- What a route without a subrouter makes of a request. -/
theorem evaluate_of_no_subrouter {route : Route} (h : route.subrouter? = none) (request : Request) :
    ∃ vars, route.evaluate request =
      if Leaf.fits request ⟨route, [], []⟩ then
        if route.settings.takes request.method then route.answer request vars
        else mismatch route.info
      else .notFound := by
  obtain ⟨info, handler, middleware, subrouter⟩ := route
  cases h
  by_cases hf : Leaf.fits request ⟨.mk info handler middleware none, [], []⟩ = true
  · obtain ⟨ha, hr⟩ := (Leaf.fits_mk_iff _ request).1 hf
    obtain ⟨vars, he⟩ := evaluate_of_fits ha hr handler middleware none
    rw [RouteInfo.admits_of_not_rejected ha hr] at he
    exact ⟨vars, by rw [if_pos hf]; exact he⟩
  · refine ⟨.empty, ?_⟩
    rw [if_neg hf]
    cases ha : info.active with
    | false => exact evaluate_of_inactive ha handler middleware none
    | true =>
      obtain ⟨m, hm, hr⟩ : ∃ m ∈ info.settings.matchers, m.rejects request = true := by
        simpa [Leaf.fits, Leaf.active, Route.settings, Route.info, ha] using hf
      exact evaluate_of_rejects hm hr handler middleware none

theorem delegate_of_not_found {vars : Vars} {wrong : Bool} {below : Outcome}
    (h : below.isFound = false) : Route.delegate info vars wrong below = below := by
  unfold Route.delegate
  rw [h, Bool.and_false]
  cases below <;> simp_all [Outcome.isFound, Outcome.mapFound]

theorem not_fits_of_rejects {route : Route} (inherits : ∀ leaf ∈ route.leaves, leaf.Inherits)
    {m : Matcher} (hm : m ∈ route.settings.matchers) (hr : m.rejects request = true) :
    ∀ leaf ∈ route.leaves, leaf.fits request = false := by
  have none_fits : ∀ leaf : Leaf, m ∈ leaf.route.settings.matchers →
      leaf.fits request = false := by
    intro leaf h
    rw [← Bool.not_eq_true]
    intro hf
    simp only [Leaf.fits, Bool.and_eq_true, List.all_eq_true, Bool.not_eq_true'] at hf
    simp [hf.2 m h] at hr
  intro leaf hl
  apply none_fits
  obtain ⟨info, handler, middleware, subrouter⟩ := route
  cases subrouter with
  | none =>
    rw [Route.leaves, List.mem_singleton] at hl
    rw [hl]
    exact hm
  | some router =>
    have hi := inherits leaf hl
    rw [Route.leaves] at hl
    obtain ⟨inner, -, rfl⟩ := List.mem_map.1 hl
    exact hi info (by simp [Leaf.under]) hm

theorem accepts_under_of_inherits {leaf : Leaf} (ha : info.active = true)
    (inherits : (leaf.under info).Inherits) (h : leaf.accepts request = true) :
    (leaf.under info).accepts request = true := by
  have hm : info.admits request = true := by
    rw [RouteInfo.admits_iff]
    simp only [Leaf.accepts, Bool.and_eq_true, RouteInfo.admits_iff] at h
    exact ⟨ha, fun m hm => h.1.1.2 m (inherits info (by simp [Leaf.under]) hm)⟩
  rw [Leaf.accepts_under, h, hm]
  rfl

theorem reports_delegating (ha : info.active = true)
    (hr : ∀ m ∈ info.settings.matchers, m.rejects request = false) (handler : Option Handler)
    (middleware : List Middleware) {router : Router}
    (inherits : ∀ leaf ∈ Router.leaves router, (leaf.under info).Inherits)
    (missed : ∀ leaf ∈ Router.leaves router, (leaf.under info).accepts request = false)
    (below : (∀ leaf ∈ Router.leaves router, leaf.accepts request = false) →
      Router.scan request router
        = .ofAllowed (unite [] (Leaf.gathered request (Router.leaves router)))) :
    Leaf.Reports request ((Router.leaves router).map (·.under info))
      (Route.evaluate request (.mk info handler middleware (some router))) := by
  obtain ⟨vars, he⟩ := evaluate_of_fits ha hr handler middleware (some router)
  have hs := below fun leaf hl => Bool.eq_false_iff.2 fun h => by
    have := accepts_under_of_inherits ha (inherits leaf hl) h
    simp [missed leaf hl] at this
  rw [he]
  change Leaf.Reports request _ 
    (delegate info vars (!info.admits request) (Router.scan request router))
  rw [hs, delegate_of_not_found (by cases unite [] _ <;> rfl), ← Leaf.gathered_under ha]
  exact Leaf.reports_ofAllowed request _

theorem reports_wrong (ha : info.active = true)
    (hr : ∀ m ∈ info.settings.matchers, m.rejects request = false)
    (hn : info.admits request = false) (handler : Option Handler) (middleware : List Middleware) :
    Leaf.Reports request [⟨mk info handler middleware none, [], []⟩]
      (Route.evaluate request (.mk info handler middleware none)) := by
  obtain ⟨vars, he⟩ := evaluate_of_fits ha hr handler middleware none
  have hf : Leaf.fits request ⟨mk info handler middleware none, [], []⟩ = true :=
    (Leaf.fits_mk_iff _ request).2 ⟨ha, hr⟩
  refine ⟨_, .inl (by rw [he, hn]; rfl), fun known => ?_⟩
  rw [Leaf.gathered, List.filter_cons_of_pos hf, List.filter_nil, List.flatMap_singleton]
  rfl

theorem reports_evaluate (route : Route)
    (handled : ∀ leaf ∈ route.leaves, leaf.active = true → leaf.route.handler?.isSome = true)
    (inherits : ∀ leaf ∈ route.leaves, leaf.Inherits)
    (missed : ∀ leaf ∈ route.leaves, leaf.accepts request = false)
    (below : ∀ child, route.subrouter? = some child → route.info.active = true →
      (∀ leaf ∈ Router.leaves child, leaf.accepts request = false) →
        Router.scan request child
          = .ofAllowed (unite [] (Leaf.gathered request (Router.leaves child)))) :
    Leaf.Reports request route.leaves (route.evaluate request) := by
  by_cases hr : ∃ m ∈ route.settings.matchers, m.rejects request = true
  · obtain ⟨m, hm, hr⟩ := hr
    have hf := not_fits_of_rejects inherits hm hr
    obtain ⟨info, handler, middleware, subrouter⟩ := route
    change m ∈ info.settings.matchers at hm
    rw [evaluate_of_rejects hm hr]
    exact Leaf.reports_notFound hf
  · obtain ⟨info, handler, middleware, subrouter⟩ := route
    replace hr : ∀ m ∈ info.settings.matchers, m.rejects request = false :=
      fun m hm => Bool.eq_false_iff.2 fun h => hr ⟨m, hm, h⟩
    cases ha : info.active with
    | false =>
      rw [evaluate_of_inactive ha]
      refine Leaf.reports_notFound ?_
      cases subrouter with
      | none => simp [Route.leaves, Leaf.fits, Leaf.active, Route.info, ha]
      | some router => simp [Route.leaves, Leaf.fits_under, ha]
    | true =>
      cases subrouter with
      | some router =>
        rw [Route.leaves] at inherits missed ⊢
        exact reports_delegating ha hr handler middleware
          (fun leaf hl => inherits _ (List.mem_map_of_mem hl))
          (fun leaf hl => missed _ (List.mem_map_of_mem hl)) (below router rfl ha)
      | none =>
        rw [Route.leaves] at handled missed ⊢
        have hh := handled _ List.mem_cons_self (by simp [Leaf.active, Route.info, ha])
        have hn := missed _ List.mem_cons_self
        refine reports_wrong ha hr ?_ handler middleware
        simpa [Leaf.accepts, Route.info, hh] using hn

end Route

namespace Leaf

theorem inherits_of_under {leaf : Leaf} {info : RouteInfo} (h : (leaf.under info).Inherits) :
    leaf.Inherits :=
  fun other ho => h other (List.mem_append_left _ ho)

theorem active_under (leaf : Leaf) (info : RouteInfo) :
    (leaf.under info).active = (leaf.active && info.active) := by
  simp only [active, under, List.all_append, List.all_cons, List.all_nil, Bool.and_true,
    Bool.and_assoc]

end Leaf

/-- A scan that no leaf accepts reports the methods of the leaves that fit the request. -/
theorem Router.scan_of_missed {request : Request} {router : Router}
    (handled : ∀ leaf ∈ Router.leaves router,
      leaf.active = true → leaf.route.handler?.isSome = true)
    (inherits : ∀ leaf ∈ Router.leaves router, leaf.Inherits)
    (missed : ∀ leaf ∈ Router.leaves router, leaf.accepts request = false) :
    Router.scan request router
      = .ofAllowed (unite [] (Leaf.gathered request (Router.leaves router))) := by
  induction router using Router.tree_induction with
  | step router ih =>
    have hw : ∀ route ∈ router.routes, ∀ leaf ∈ route.leaves,
        leaf.within router ∈ Router.leaves router :=
      fun route hr leaf hl => (Router.mem_leaves router _).2 ⟨route, hr, leaf, hl, rfl⟩
    have hs : Router.scanRoutes request [] router.routes
        = .ofAllowed (unite [] (Leaf.gathered request (router.routes.flatMap Route.leaves))) := by
      refine Leaf.scanRoutes_of_reports (fun route hr => ?_) []
      refine Route.reports_evaluate route
        (fun leaf hl => handled (leaf.within router) (hw route hr leaf hl))
        (fun leaf hl => inherits (leaf.within router) (hw route hr leaf hl))
        (fun leaf hl => missed (leaf.within router) (hw route hr leaf hl)) ?_
      intro child hc ha hm
      have hu : ∀ leaf ∈ Router.leaves child, leaf.under route.info ∈ route.leaves :=
        fun leaf hl => (Route.mem_leaves route _).2 (.inr ⟨child, hc, leaf, hl, rfl⟩)
      refine ih route hr child hc ?_ ?_ hm
      · intro leaf hl hactive
        refine handled ((leaf.under route.info).within router) (hw route hr _ (hu leaf hl)) ?_
        change (leaf.under route.info).active = true
        rw [Leaf.active_under, hactive, ha]
        rfl
      · intro leaf hl
        exact Leaf.inherits_of_under
          (inherits ((leaf.under route.info).within router) (hw route hr _ (hu leaf hl)))
    rw [Router.leaves_eq, Leaf.gathered_within]
    obtain ⟨routes, middleware, notFound, methodNotAllowed, settings, scope⟩ := router
    rw [Router.scan, hs]
    cases unite [] (Leaf.gathered request (routes.flatMap Route.leaves)) <;> rfl

namespace Router

def Inherited (s : Settings) (route : Route) : Prop :=
  s.matchers.Sublist route.settings.matchers

theorem inherited_invariant : Invariant (fun _ => True) Inherited where
  initial := trivial
  configured _ _ _ := trivial
  draft s _ := List.Sublist.refl s.matchers
  kept router step route _ h := by cases step <;> exact h
  applied s route step w _ h := h.trans (Route.apply_grows step route w).sublist
  delegating _ _ _ _ h := h
  opened _ _ _ _ := trivial

theorem leaf_inherits {router : Router}
    (inherited : Throughout (Invariant.Holds (fun _ => True) Inherited) router)
    (settled : Throughout Settled router) :
    ∀ leaf ∈ Router.leaves router, leaf.Inherits ∧
      router.settings.matchers ⊆ leaf.route.settings.matchers := by
  induction router using Router.tree_induction with
  | step router ih =>
    intro leaf hl
    obtain ⟨route, hr, inner, hi, rfl⟩ := (Router.mem_leaves router leaf).1 hl
    have hs := (inherited.here.2 route hr).subset
    rcases (Route.mem_leaves route inner).1 hi with ⟨-, rfl⟩ | ⟨child, hc, deep, hd, rfl⟩
    · exact ⟨fun info h => absurd h List.not_mem_nil, hs⟩
    · obtain ⟨hin, hsub⟩ := ih route hr child hc (inherited.deeper route hr child hc)
        (settled.deeper route hr child hc) deep hd
      rw [settled.here route hr child hc] at hsub
      refine ⟨?_, fun m hm => hsub (hs hm)⟩
      intro info ho
      rcases List.mem_append.1 ho with ho | ho
      · exact hin info ho
      · rw [List.mem_singleton.1 ho]
        exact hsub

/-- If no leaf accepts a request, changing the method helps exactly for the methods reported. -/
theorem exists_accepts_iff {request : Request} {leaves : List Leaf}
    (handled : ∀ leaf ∈ leaves, leaf.active = true → leaf.route.handler?.isSome = true)
    (inherits : ∀ leaf ∈ leaves, leaf.Inherits)
    (blind : ∀ leaf ∈ leaves, ∀ m ∈ leaf.route.settings.matchers, m.IgnoresMethod)
    (missed : ∀ leaf ∈ leaves, leaf.accepts request = false) (method : Method) :
    (∃ leaf ∈ leaves, leaf.accepts (request.withMethod method) = true) ↔
      method ∈ Leaf.gathered request leaves := by
  rw [Leaf.mem_gathered]
  refine exists_congr fun leaf => and_congr_right fun hl => ?_
  have ha := Leaf.accepts_withMethod_iff (handled leaf hl) (inherits leaf hl) (blind leaf hl)
    request
  rw [ha]
  refine and_congr_right fun hf => ?_
  have hn : leaf.route.settings.takes request.method = false := by
    refine Bool.eq_false_iff.2 fun ht => ?_
    have hr := (ha request.method).2 ⟨hf, ht⟩
    simp [Request.withMethod, missed leaf hl] at hr
  obtain ⟨methods, hm⟩ := Settings.exists_methods_of_not_takes hn
  rw [Settings.takes_iff_mem, Leaf.allowed, hm]
  simp

/-- Only the path decides whether a request is redirected before the routes are looked at. -/
theorem resolve_withMethod {router : Router} {request : Request}
    (h : (router.resolve request).isFound = false) :
    router.resolve request = router.scan request ∧ ∀ method,
      router.resolve (request.withMethod method) = router.scan (request.withMethod method) := by
  by_cases hc : router.settings.skipClean = true ∨ Path.clean request.path = request.path
  · exact ⟨resolve_of_clean hc, fun method => resolve_of_clean hc⟩
  · rw [not_or] at hc
    simp [resolve, hc, Outcome.isFound] at h

/-- Requests that differ in the method only meet the same leaves, so that those of them which are
not answered by a match get the same report. -/
theorem resolve_report {router : Router}
    (handled : ∀ leaf ∈ Router.leaves router,
      leaf.active = true → leaf.route.handler?.isSome = true)
    (inherits : ∀ leaf ∈ Router.leaves router, leaf.Inherits)
    (blind : ∀ leaf ∈ Router.leaves router, ∀ m ∈ leaf.route.settings.matchers, m.IgnoresMethod)
    {request : Request} (h : (router.resolve request).isFound = false) :
    ∃ report : List Method, report.Nodup ∧ router.resolve request = .ofAllowed report ∧
      ∀ method,
        (method ∈ report ↔ (router.resolve (request.withMethod method)).isFound = true) ∧
        (method ∉ report → router.resolve (request.withMethod method) = .ofAllowed report) := by
  obtain ⟨hs, hm⟩ := resolve_withMethod h
  rw [hs] at h ⊢
  have missed := (missed_iff request router).2 h
  refine ⟨unite [] (Leaf.gathered request (Router.leaves router)), nodup_unite _ List.nodup_nil,
    scan_of_missed handled inherits missed, fun method => ?_⟩
  have found : method ∈ unite [] (Leaf.gathered request (Router.leaves router)) ↔
      (router.scan (request.withMethod method)).isFound = true := by
    rw [mem_unite, isFound_scan_iff, exists_accepts_iff handled inherits blind missed]
    simp
  rw [hm]
  refine ⟨found, fun hn => ?_⟩
  rw [found, Bool.not_eq_true, ← missed_iff] at hn
  rw [scan_of_missed handled inherits hn, Leaf.gathered_withMethod blind]

/-- A wrong method is reported with exactly the methods that lead to a match, and a miss is a miss
for all methods. -/
theorem methodMismatch_exact {router : Router} (reachable : router.Reachable)
    (handled : ∀ leaf ∈ Router.leaves router,
      leaf.active = true → leaf.route.handler?.isSome = true)
    (settled : Throughout Settled router)
    (blind : ∀ leaf ∈ Router.leaves router, ∀ m ∈ leaf.route.settings.matchers, m.IgnoresMethod)
    (request : Request) :
    (∀ allowed, router.resolve request = .methodMismatch allowed →
      allowed ≠ [] ∧ allowed.Nodup ∧
      ∀ method,
        (method ∈ allowed ↔ (router.resolve (request.withMethod method)).isFound = true) ∧
        (method ∉ allowed →
          router.resolve (request.withMethod method) = .methodMismatch allowed)) ∧
    (router.resolve request = .notFound →
      ∀ method, router.resolve (request.withMethod method) = .notFound) := by
  have inherits : ∀ leaf ∈ Router.leaves router, leaf.Inherits := fun leaf hl =>
    (leaf_inherits (inherited_invariant.reachable reachable) settled leaf hl).1
  constructor
  · intro allowed ha
    obtain ⟨report, hd, hr, hm⟩ := resolve_report handled inherits blind
      (show (router.resolve request).isFound = false by rw [ha]; rfl)
    cases report with
    | nil =>
      rw [ha] at hr
      cases hr
    | cons first rest =>
      rw [ha] at hr
      cases hr
      exact ⟨List.cons_ne_nil first rest, hd, hm⟩
  · intro hn method
    obtain ⟨report, -, hr, hm⟩ := resolve_report handled inherits blind
      (show (router.resolve request).isFound = false by rw [hn]; rfl)
    cases report with
    | nil => exact (hm method).2 List.not_mem_nil
    | cons first rest =>
      rw [hn] at hr
      cases hr

def narrowedTree : Router :=
  (callAll
    [.register [.methods [.get, .post, .options]], .delegate 0,
      .inside 0 (.register [.methods [.put, .get], .handler .notFound]),
      .register [.methods [.delete, .get], .handler .notFound]]
    (.ofSettings .initial 0) .initial).1.2

theorem methodMismatch_narrowed :
    narrowedTree.Reachable ∧ Throughout Settled narrowedTree ∧
      narrowedTree.resolve (Request.new .post ['/']) = .methodMismatch [.get, .delete] ∧
      ∀ method, method ∈ [Method.get, .delete] ↔
        (narrowedTree.resolve ((Request.new .post ['/']).withMethod method)).isFound = true := by
  have reachable : narrowedTree.Reachable := ⟨0, _, _, rfl⟩
  have hl : ∀ leaf ∈ Router.leaves narrowedTree,
      leaf.route.handler?.isSome = true ∧
        ∀ m ∈ leaf.route.settings.matchers, m.IgnoresMethod := by
    change ∀ leaf ∈ [_, _], _
    simp only [List.forall_mem_cons]
    refine ⟨⟨rfl, ?_⟩, ⟨rfl, ?_⟩, nofun⟩
    · change ∀ m ∈ [Matcher.methods _, .methods _], _
      simp [Matcher.IgnoresMethod]
    · change ∀ m ∈ [Matcher.methods _], _
      simp [Matcher.IgnoresMethod]
  have settled : Throughout Settled narrowedTree :=
    settled_after (settled_ofSettings .initial 0)
      ⟨trivial, trivial, fun _ _ _ _ => trivial, trivial, trivial⟩
  have resolved : narrowedTree.resolve (Request.new .post ['/'])
      = .methodMismatch [.get, .delete] := rfl
  obtain ⟨exact, -⟩ := methodMismatch_exact reachable (fun leaf h _ => (hl leaf h).1) settled
    (fun leaf h => (hl leaf h).2) (Request.new .post ['/'])
  exact ⟨reachable, settled, resolved, fun method => ((exact _ resolved).2.2 method).1⟩

end Router
end HttpRouter
