import HttpRouter.Proofs.Router.AllowedMethods

set_option autoImplicit false

namespace HttpRouter

namespace Leaf

def takesAll (leaf : Leaf) : Bool := leaf.route.settings.methods?.isNone

/-- What is announced after the methods that are `known` already. -/
def announce (request : Request) (known : List Method) (leaves : List Leaf) :
    Except Error (List Method) :=
  if leaves.any fun leaf => leaf.fits request && leaf.takesAll then .error .methodsNotDefined
  else
    match unite known (gathered request leaves) with
    | [] => .error .noMatchingRoute
    | methods => .ok methods

section
variable {leaf : Leaf} {request : Request}

theorem announce_cons_of_not_fits (h : leaf.fits request = false) (known : List Method)
    (rest : List Leaf) : announce request known (leaf :: rest) = announce request known rest := by
  have hg : gathered request (leaf :: rest) = gathered request rest := by
    rw [gathered, List.filter_cons_of_neg (by simp [h]), gathered]
  rw [announce, List.any_cons, h, Bool.false_and, Bool.false_or, hg, announce]

theorem announce_cons_of_takesAll (hf : leaf.fits request = true) (ha : leaf.takesAll = true)
    (known : List Method) (rest : List Leaf) :
    announce request known (leaf :: rest) = .error .methodsNotDefined := by
  rw [announce, List.any_cons, hf, ha]
  rfl

theorem announce_cons_of_fits {methods : List Method} (hf : leaf.fits request = true)
    (hm : leaf.route.settings.methods? = some methods) (known : List Method)
    (rest : List Leaf) :
    announce request known (leaf :: rest) = announce request (unite known methods) rest := by
  have hg : gathered request (leaf :: rest) = methods ++ gathered request rest := by
    rw [gathered, List.filter_cons_of_pos hf, List.flatMap_cons, allowed, hm, gathered]
    rfl
  have ht : leaf.takesAll = false := by rw [takesAll, hm]; rfl
  rw [announce, List.any_cons, ht, Bool.and_false, Bool.false_or, hg, unite_append, announce]

end

theorem announce_withMethod {leaves : List Leaf}
    (blind : ∀ leaf ∈ leaves, ∀ m ∈ leaf.route.settings.matchers, m.IgnoresMethod)
    (request : Request) (method : Method) (known : List Method) :
    announce (request.withMethod method) known leaves = announce request known leaves := by
  have ha : (leaves.any fun leaf => leaf.fits (request.withMethod method) && leaf.takesAll)
      = leaves.any fun leaf => leaf.fits request && leaf.takesAll := by
    rw [Bool.eq_iff_iff, List.any_eq_true, List.any_eq_true]
    refine exists_congr fun leaf => and_congr_right fun hl => ?_
    rw [fits_withMethod (blind leaf hl)]
  rw [announce, ha, gathered_withMethod blind, announce]

/-- A method is taken by a leaf that fits exactly if it is in the list, or if there is none because
such a leaf takes all methods. -/
theorem announce_cases (request : Request) (leaves : List Leaf) :
    (announce request [] leaves = .error .methodsNotDefined ∧ ∀ method, ∃ leaf ∈ leaves,
      leaf.fits request = true ∧ leaf.route.settings.takes method = true) ∨
    ((announce request [] leaves =
        match unite [] (gathered request leaves) with
        | [] => .error .noMatchingRoute
        | methods => .ok methods) ∧
      ∀ method, (∃ leaf ∈ leaves,
          leaf.fits request = true ∧ leaf.route.settings.takes method = true) ↔
        method ∈ unite [] (gathered request leaves)) := by
  by_cases ha : (leaves.any fun leaf => leaf.fits request && leaf.takesAll) = true
  · refine .inl ⟨by rw [announce, if_pos ha], fun method => ?_⟩
    simp only [List.any_eq_true, Bool.and_eq_true, takesAll, Option.isNone_iff_eq_none] at ha
    obtain ⟨leaf, hl, hf, hm⟩ := ha
    refine ⟨leaf, hl, hf, (Settings.takes_iff_mem _ _).2 ?_⟩
    rw [hm]
    nofun
  · refine .inr ⟨by rw [announce, if_neg ha], fun method => ?_⟩
    simp only [mem_unite, List.not_mem_nil, false_or, mem_gathered]
    refine exists_congr fun leaf => and_congr_right fun hl => and_congr_right fun hf => ?_
    rw [Settings.takes_iff_mem, allowed]
    cases hm : leaf.route.settings.methods? with
    | none =>
      refine absurd (List.any_eq_true.2 ⟨leaf, hl, ?_⟩) ha
      rw [hf, takesAll, hm]
      rfl
    | some methods => simp

theorem announce_within (router : Router) (request : Request) (known : List Method)
    (leaves : List Leaf) :
    announce request known (leaves.map (·.within router)) = announce request known leaves := by
  rw [announce, List.any_map, gathered_within, announce]
  rfl

end Leaf

namespace Router

def own (router : Router) : Router :=
  { router with routes := router.routes.filter (·.subrouter?.isNone) }

theorem mem_own {router : Router} {route : Route} :
    route ∈ router.own.routes ↔ route ∈ router.routes ∧ route.subrouter? = none := by
  simp [own]

theorem mem_leaves_own {router : Router} {leaf : Leaf} (h : leaf ∈ Router.leaves router.own) :
    leaf.route ∈ router.routes ∧ leaf.route.subrouter? = none ∧ leaf.above = [] := by
  obtain ⟨route, hr, inner, hi, rfl⟩ := (mem_leaves router.own leaf).1 h
  obtain ⟨hm, hs⟩ := mem_own.1 hr
  rcases (Route.mem_leaves route inner).1 hi with ⟨-, rfl⟩ | ⟨child, hc, -⟩
  · exact ⟨hm, hs, rfl⟩
  · rw [hs] at hc
    cases hc

/-- The announcement in terms of the leaves. -/
theorem allowedFrom_eq (request : Request) {routes : List Route}
    (handled : ∀ route ∈ routes, route.subrouter? = none → route.info.active = true →
      route.handler?.isSome = true) (known : List Method) :
    allowedFrom request known routes = Leaf.announce request known
      ((routes.filter (·.subrouter?.isNone)).flatMap Route.leaves) := by
  induction routes generalizing known with
  | nil => cases known <;> rfl
  | cons route rest ih =>
    have later := ih fun other ho => handled other (List.mem_cons_of_mem route ho)
    rw [allowedFrom]
    cases hs : route.subrouter? with
    | some child =>
      rw [List.filter_cons_of_neg (by simp [hs])]
      exact later known
    | none =>
      rw [List.filter_cons_of_pos (by simp [hs]), List.flatMap_cons,
        Route.leaves_of_no_subrouter hs, List.singleton_append]
      obtain ⟨vars, he⟩ := Route.evaluate_of_no_subrouter hs request
      cases hf : Leaf.fits request ⟨route, [], []⟩ with
      | false =>
        rw [Leaf.announce_cons_of_not_fits hf, he, hf]
        exact later known
      | true =>
        obtain ⟨handler, hh⟩ := Option.isSome_iff_exists.1
          (handled route List.mem_cons_self hs ((Leaf.fits_mk_iff route request).1 hf).1)
        have hn : (route.evaluate request).isNotFound = false := by
          rw [he, hf, Route.answer, hh]
          cases route.settings.takes request.method with
          | false => rfl
          | true => cases route.settings.slashRedirect? request <;> rfl
        rw [hn, Route.methods, Settings.methods]
        cases hm : route.settings.methods? with
        | none =>
          rw [Leaf.announce_cons_of_takesAll hf (by rw [Leaf.takesAll, hm]; rfl)]
          rfl
        | some methods =>
          rw [Leaf.announce_cons_of_fits hf hm]
          exact later (unite known methods)

section
variable {router : Router}
  (handled : ∀ route ∈ router.routes, route.subrouter? = none → route.info.active = true →
    route.handler?.isSome = true)
  (blind : ∀ route ∈ router.routes, route.subrouter? = none →
    ∀ m ∈ route.settings.matchers, m.IgnoresMethod)

include handled in
theorem allowedMethods_eq (request : Request) :
    router.allowedMethods request = Leaf.announce request [] (Router.leaves router.own) := by
  rw [allowedMethods, allowedFrom_eq request handled, Router.leaves_eq, Leaf.announce_within]
  rfl

include handled in
theorem handled_own : ∀ leaf ∈ Router.leaves router.own,
    leaf.active = true → leaf.route.handler?.isSome = true := by
  intro leaf hl ha
  obtain ⟨hr, hs, -⟩ := mem_leaves_own hl
  rw [Leaf.active, Bool.and_eq_true] at ha
  exact handled leaf.route hr hs ha.1

include blind in
theorem blind_own : ∀ leaf ∈ Router.leaves router.own,
    ∀ m ∈ leaf.route.settings.matchers, m.IgnoresMethod := by
  intro leaf hl
  obtain ⟨hr, hs, -⟩ := mem_leaves_own hl
  exact blind leaf.route hr hs

theorem inherits_own : ∀ leaf ∈ Router.leaves router.own, leaf.Inherits := by
  intro leaf hl info hi
  rw [(mem_leaves_own hl).2.2] at hi
  cases hi

include handled blind

theorem allowedMethods_withMethod (request : Request) (method : Method) :
    router.allowedMethods (request.withMethod method) = router.allowedMethods request := by
  rw [allowedMethods_eq handled, allowedMethods_eq handled,
    Leaf.announce_withMethod (blind_own blind)]

theorem isFound_own_iff (request : Request) (method : Method) :
    (router.own.scan (request.withMethod method)).isFound = true ↔
      ∃ leaf ∈ Router.leaves router.own,
        leaf.fits request = true ∧ leaf.route.settings.takes method = true := by
  rw [isFound_scan_iff]
  refine exists_congr fun leaf => and_congr_right fun hl => ?_
  exact Leaf.accepts_withMethod_iff (handled_own handled leaf hl) (inherits_own leaf hl)
    (blind_own blind leaf hl) request method

theorem own_of_missed {request : Request} {method : Method}
    (h : (router.own.scan (request.withMethod method)).isFound = false) :
    router.own.scan (request.withMethod method)
      = .ofAllowed (unite [] (Leaf.gathered request (Router.leaves router.own))) := by
  rw [scan_of_missed (handled_own handled) inherits_own ((missed_iff _ _).2 h),
    Leaf.gathered_withMethod (blind_own blind)]

/-- Either every method is found, or those that are found are the ones a miss would report. -/
theorem allowedMethods_cases (request : Request) :
    (router.allowedMethods request = .error .methodsNotDefined ∧
      ∀ method, (router.own.scan (request.withMethod method)).isFound = true) ∨
    ∃ methods : List Method, methods.Nodup ∧
      router.allowedMethods request = (if methods = [] then .error .noMatchingRoute
        else .ok methods) ∧
      ∀ method,
        ((router.own.scan (request.withMethod method)).isFound = true ↔ method ∈ methods) ∧
        (method ∉ methods →
          router.own.scan (request.withMethod method) = .ofAllowed methods) := by
  have found := isFound_own_iff handled blind request
  rw [allowedMethods_eq handled]
  rcases Leaf.announce_cases request (Router.leaves router.own) with ⟨he, hall⟩ | ⟨he, hiff⟩
  · exact .inl ⟨he, fun method => (found method).2 (hall method)⟩
  · simp only [hiff] at found
    refine .inr ⟨_, nodup_unite _ List.nodup_nil, ?_, fun method => ⟨found method, fun hn => ?_⟩⟩
    · rw [he]
      cases unite [] (Leaf.gathered request (Router.leaves router.own)) <;> rfl
    · rw [← found method, Bool.not_eq_true] at hn
      exact own_of_missed handled blind hn

end

/-- What a router announces agrees with dispatch over its own routes, if all of these have handlers
and none of them looks at the method but by a list of methods. -/
theorem announced_exact {router : Router}
    (handled : ∀ route ∈ router.routes, route.subrouter? = none → route.info.active = true →
      route.handler?.isSome = true)
    (blind : ∀ route ∈ router.routes, route.subrouter? = none →
      ∀ m ∈ route.settings.matchers, m.IgnoresMethod)
    (request : Request) :
    (∀ methods, router.allowedMethods request = .ok methods → methods.Nodup ∧ ∀ method,
      (router.own.scan (request.withMethod method)).isFound = true ↔ method ∈ methods) ∧
    (∀ error, router.allowedMethods request = .error error →
      (error = .methodsNotDefined ∧
        ∀ method, (router.own.scan (request.withMethod method)).isFound = true) ∨
      (error = .noMatchingRoute ∧
        ∀ method, router.own.scan (request.withMethod method) = .notFound)) ∧
    (∀ method, router.allowedMethods (request.withMethod method)
      = router.allowedMethods request) ∧
    ∀ methods, router.own.scan request = .methodMismatch methods →
      router.allowedMethods request = .ok methods := by
  have same := allowedMethods_withMethod handled blind request
  rcases allowedMethods_cases handled blind request with
    ⟨he, found⟩ | ⟨announced, nodup, he, found⟩
  · rw [he] at same ⊢
    refine ⟨nofun, fun error h => .inl ⟨(Except.error.inj h).symm, found⟩, same, ?_⟩
    intro methods hs
    have hf := found request.method
    change (router.own.scan request).isFound = true at hf
    rw [hs] at hf
    cases hf
  · have mismatch : ∀ methods, router.own.scan request = .methodMismatch methods →
        .methodMismatch methods = Outcome.ofAllowed announced := by
      intro methods hs
      obtain ⟨hf, hm⟩ := found request.method
      change (router.own.scan request).isFound = true ↔ _ at hf
      change _ → router.own.scan request = _ at hm
      rw [hs] at hf hm
      exact hm fun h => nomatch hf.2 h
    cases announced with
    | nil =>
      rw [he] at same ⊢
      refine ⟨nofun, fun error h => .inr ⟨(Except.error.inj h).symm, fun method => ?_⟩, same, ?_⟩
      · exact (found method).2 List.not_mem_nil
      · exact fun methods hs => nomatch mismatch methods hs
    | cons first rest =>
      rw [he] at same ⊢
      refine ⟨?_, nofun, same, ?_⟩
      · rintro methods ⟨⟩
        exact ⟨nodup, fun method => (found method).1⟩
      · intro methods hs
        cases mismatch methods hs
        rfl

def branched : Router :=
  let accepting (methods : List Method) : Route :=
    .mk (.ofSettings (Settings.initial.addMatcher (.methods methods))) (some .notFound) [] none
  let secure := Settings.initial.addMatcher (.schemes ["https".toList])
  ⟨[accepting [.get, .post],
    .mk (.ofSettings .initial) none []
      (some ⟨[accepting [.delete]], [], none, none, .initial, 1⟩),
    accepting [.put, .get],
    .mk (.ofSettings secure) (some .notFound) [] none], [], none, none, .initial, 0⟩

theorem branched_announces :
    (∀ route ∈ branched.routes, route.subrouter? = none → route.info.active = true →
      route.handler?.isSome = true) ∧
    (∀ route ∈ branched.routes, route.subrouter? = none →
      ∀ m ∈ route.settings.matchers, m.IgnoresMethod) ∧
    (let delete := Request.new .delete ['/']
    branched.allowedMethods delete = .ok [.get, .post, .put] ∧
      (branched.scan delete).isFound = true ∧
      ∀ method, (branched.own.scan (delete.withMethod method)).isFound = true ↔
        method ∈ [Method.get, .post, .put]) ∧
    let secure := { Request.new .delete ['/'] with scheme := some "https".toList }
    branched.allowedMethods secure = .error .methodsNotDefined ∧
      ∀ method, (branched.own.scan (secure.withMethod method)).isFound = true := by
  have handled : ∀ route ∈ branched.routes, route.subrouter? = none →
      route.info.active = true → route.handler?.isSome = true := by
    change ∀ route ∈ [_, _, _, _], _
    simp [Route.handler?, Route.subrouter?]
  have blind : ∀ route ∈ branched.routes, route.subrouter? = none →
      ∀ m ∈ route.settings.matchers, m.IgnoresMethod := by
    have by_methods : ∀ methods, ∀ m ∈ [Matcher.methods methods], m.IgnoresMethod := by
      simp [Matcher.IgnoresMethod]
    have by_schemes : ∀ schemes, ∀ m ∈ [Matcher.schemes schemes], m.IgnoresMethod := by
      simp [Matcher.IgnoresMethod]
    change ∀ route ∈ [_, _, _, _], _
    simp only [List.forall_mem_cons]
    refine ⟨fun _ => by_methods _, fun h => ?_, fun _ => by_methods _, fun _ => by_schemes _, ?_⟩
    · cases h
    · simp
  have listed : branched.allowedMethods (Request.new .delete ['/'])
      = .ok [.get, .post, .put] := rfl
  obtain ⟨delete, -⟩ := announced_exact handled blind (Request.new .delete ['/'])
  obtain ⟨-, secure, -⟩ := announced_exact handled blind
    { Request.new .delete ['/'] with scheme := some "https".toList }
  refine ⟨handled, blind, ⟨listed, rfl, (delete _ listed).2⟩, rfl, ?_⟩
  rcases secure _ rfl with ⟨-, hf⟩ | ⟨he, -⟩
  · exact hf
  · cases he

end Router
end HttpRouter
