import HttpRouter.Proofs.Router.Agreement
import HttpRouter.Proofs.Router.Confined

set_option autoImplicit false

namespace HttpRouter

variable {M : List Method} {request : Request}

/-- A set of methods that has the method of the request makes no difference to a judgement. -/
theorem Matcher.Confined.judge {ms others : List Matcher} (h : Matcher.Confined M ms others)
    (hm : request.method ∈ M) (vars : Vars) (wrong : Bool) :
    Settings.judge request others vars wrong = Settings.judge request ms vars wrong := by
  obtain ⟨front, back, rfl, -, rfl⟩ := h
  have hpass : ∀ vars wrong, Settings.judge request (.methods M :: back) vars wrong
      = Settings.judge request back vars wrong := by
    intro vars wrong
    simp only [Settings.judge, Matcher.evaluate, List.contains_eq_mem, hm, decide_true, if_true]
  rw [Settings.judge_append, Settings.judge_append]
  simp only [hpass]

namespace Settings.Confined

variable {s t : Settings}

theorem mem_matchers (h : s.Confined M t) {m : Matcher} :
    m ∈ t.matchers ↔ m = .methods M ∨ m ∈ s.matchers := by
  obtain ⟨ms, hc, rfl⟩ := h
  exact hc.mem_iff

theorem withoutMethods (h : s.Confined M t) : t.withoutMethods = s.withoutMethods := by
  obtain ⟨ms, ⟨front, back, hs, -, rfl⟩, rfl⟩ := h
  simp only [Settings.withoutMethods, hs, List.filter_append]
  rw [List.filter_cons_of_neg (by simp [Matcher.methods?])]

theorem takes_iff (h : s.Confined M t) (method : Method) :
    t.takes method = true ↔ method ∈ M ∧ s.takes method = true := by
  simp only [takes, List.all_eq_true, h.mem_matchers, forall_eq_or_imp, Matcher.methods?,
    Option.all_some, List.contains_eq_mem, decide_eq_true_eq]

theorem judge (h : s.Confined M t) (hm : request.method ∈ M) :
    Settings.judge request t.matchers .empty false
      = Settings.judge request s.matchers .empty false := by
  obtain ⟨ms, hc, rfl⟩ := h
  exact hc.judge hm .empty false

end Settings.Confined

namespace Route

/-- Whatever is reported, for one of the methods the same is found. -/
theorem concurs_confined {routes others : List Route} (h : ConfinedAll M routes others)
    (hm : request.method ∈ M) : ∀ known known', True →
      Outcome.Concurs (fun _ _ => True) (Router.scanRoutes request known routes)
        (Router.scanRoutes request known' others) := by
  have add : Outcome.Additive fun _ _ => True := ⟨fun _ => trivial, fun _ _ => trivial⟩
  induction h with
  | nil => exact fun _ _ h => Router.concurs_nil h
  | leaf hi handler middleware later ih =>
    obtain ⟨t, ht, rfl⟩ := hi
    refine Router.concurs_cons add ?_ ih
    rw [evaluate, evaluate, ht.judge hm]
    split
    · exact .refl add _
    · split
      · exact .refl add _
      · rename_i vars wrong _
        cases wrong with
        | true => exact .missed rfl rfl trivial
        | false =>
          refine .of_like (like_answer ?_ ?_ (fun _ => ?_) request) trivial
          · rfl
          · exact ht.kept.2
          · exact ⟨⟨t, ht.withoutMethods, rfl⟩, rfl, rfl, .nil⟩
  | inside hi handler middleware hs inner later ihinner ih =>
    obtain ⟨t, ht, rfl⟩ := hi
    refine Router.concurs_cons add ?_ ih
    rw [evaluate, evaluate, ht.judge hm]
    split
    · exact .refl add _
    · split
      · exact .refl add _
      · refine .delegate _ _ trivial (Router.concurs_scan ⟨_, _, hs.withoutMethods, rfl⟩ ?_)
        exact ihinner [] [] trivial

end Route

theorem RouteInfo.Confined.active {info other : RouteInfo} (h : info.Confined M other) :
    other.active = info.active := by
  obtain ⟨t, -, rfl⟩ := h
  rfl

namespace Leaf

structure Confined (M : List Method) (leaf other : Leaf) : Prop where
  info : leaf.route.info.Confined M other.route.info
  handler : other.route.handler? = leaf.route.handler?
  above : List.Forall₂ (RouteInfo.Confined M) leaf.above other.above

namespace Confined

variable {leaf other : Leaf}

theorem settings (h : leaf.Confined M other) :
    leaf.route.settings.Confined M other.route.settings := h.info.settings

theorem under (h : leaf.Confined M other) {info info' : RouteInfo} (hi : info.Confined M info') :
    (leaf.under info).Confined M (other.under info') :=
  ⟨h.info, h.handler, List.rel_append h.above (.cons hi .nil)⟩

theorem within (h : leaf.Confined M other) (router scope : Router) :
    (leaf.within router).Confined M (other.within scope) := ⟨h.info, h.handler, h.above⟩

theorem active (h : leaf.Confined M other) : other.active = leaf.active := by
  have habove := h.above
  rw [Leaf.active, Leaf.active, h.info.active]
  generalize leaf.above = infos at habove ⊢
  generalize other.above = others at habove ⊢
  congr 1
  induction habove with
  | nil => rfl
  | cons hi _ ih => rw [List.all_cons, List.all_cons, hi.active, ih]

/-- Sets of methods do not reject. -/
theorem fits (h : leaf.Confined M other) (request : Request) :
    other.fits request = leaf.fits request := by
  have hreject : (Matcher.methods M).rejects request = false := by
    simp only [Matcher.rejects, Matcher.evaluate]
    split <;> rfl
  unfold Leaf.fits
  rw [h.active, Bool.eq_iff_iff]
  simp only [Bool.and_eq_true, List.all_eq_true, h.settings.mem_matchers, forall_eq_or_imp, hreject,
    Bool.not_false, true_and]

theorem inherits (h : leaf.Confined M other) (hl : leaf.Inherits) : other.Inherits := by
  have hsettings := h.settings
  have habove := h.above
  unfold Leaf.Inherits at hl ⊢
  generalize leaf.above = infos at habove hl
  generalize other.above = others at habove ⊢
  induction habove with
  | nil => exact List.forall_mem_nil _
  | cons hi _ ih =>
    obtain ⟨hfirst, hrest⟩ := List.forall_mem_cons.1 hl
    refine List.forall_mem_cons.2 ⟨?_, ih hrest⟩
    obtain ⟨t, ht, rfl⟩ := hi
    intro m hm
    rw [hsettings.mem_matchers]
    exact (ht.mem_matchers.1 hm).imp_right fun hm => hfirst hm

end Confined
end Leaf

theorem Route.leaves_confined {routes others : List Route} (h : ConfinedAll M routes others) :
    List.Forall₂ (Leaf.Confined M) (routes.flatMap Route.leaves)
      (others.flatMap Route.leaves) := by
  induction h with
  | nil => exact .nil
  | leaf hi handler middleware later ih => exact .cons ⟨hi, rfl, .nil⟩ ih
  | inside hi handler middleware hs inner later ihinner ih =>
    rw [List.flatMap_cons, List.flatMap_cons, Route.leaves, Route.leaves, Router.leaves_eq,
      Router.leaves_eq]
    refine List.rel_append ?_ ih
    simp only [List.map_map, List.forall₂_map_left_iff, List.forall₂_map_right_iff]
    exact ihinner.imp fun _ _ hl => (hl.within _ _).under hi

namespace Router.Confined

variable {router other : Router}

theorem leaves (h : Router.Confined M router other) :
    List.Forall₂ (Leaf.Confined M) (Router.leaves router) (Router.leaves other) := by
  obtain ⟨t, routes, hs, hr, rfl⟩ := h
  rw [Router.leaves_eq, Router.leaves_eq, List.forall₂_map_left_iff, List.forall₂_map_right_iff]
  exact (Route.leaves_confined hr).imp fun _ _ hl => hl.within _ _

theorem exists_leaf (h : Router.Confined M router other) {leaf : Leaf}
    (hl : leaf ∈ Router.leaves other) : ∃ whole ∈ Router.leaves router, whole.Confined M leaf := by
  have hleaves := h.leaves
  generalize Router.leaves router = leaves at hleaves ⊢
  generalize Router.leaves other = others at hleaves hl
  induction hleaves with
  | nil => cases hl
  | cons hfirst _ ih =>
    rcases List.mem_cons.1 hl with rfl | hl
    · exact ⟨_, List.mem_cons_self, hfirst⟩
    · obtain ⟨whole, hw, hc⟩ := ih hl
      exact ⟨whole, List.mem_cons_of_mem _ hw, hc⟩

/-- For one of the methods both find the same. -/
theorem scan_of_mem (h : Router.Confined M router other) (hm : request.method ∈ M) :
    Outcome.Concurs (fun _ _ => True) (router.scan request) (other.scan request) := by
  obtain ⟨t, routes, hs, hr, rfl⟩ := h
  exact concurs_scan ⟨t, routes, hs.withoutMethods, rfl⟩
    (Route.concurs_confined hr hm [] [] trivial)

/-- For any other method the confined router finds nothing. -/
theorem scan_of_not_mem (h : Router.Confined M router other) (hm : request.method ∉ M) :
    (other.scan request).isFound = false := by
  rw [← missed_iff]
  intro leaf hl
  obtain ⟨whole, -, hc⟩ := h.exists_leaf hl
  rw [← Bool.not_eq_true]
  intro ha
  simp only [Leaf.accepts, Bool.and_eq_true, RouteInfo.admits_iff] at ha
  have hmethods := ha.1.1.2 (.methods M) (hc.settings.mem_matchers.2 (.inl rfl))
  simp [Matcher.accepts_eq, Matcher.methods?, hm] at hmethods

end Router.Confined

namespace Router

/-- Only its method can have kept a request from a leaf that it fits. -/
theorem exists_methods_of_missed {leaf : Leaf}
    (handled : leaf.active = true → leaf.route.handler?.isSome = true) (inherits : leaf.Inherits)
    (missed : leaf.accepts request = false) (hf : leaf.fits request = true) :
    ∃ methods, leaf.route.settings.methods? = some methods := by
  have ha : leaf.active = true := by
    rw [Leaf.fits, Bool.and_eq_true] at hf
    exact hf.1
  have htakes : leaf.route.settings.takes request.method = false := by
    rw [← Bool.not_eq_true, Leaf.accepts_iff inherits] at missed
    exact Bool.eq_false_iff.2 fun ht => missed ⟨hf, ht, handled ha⟩
  exact Settings.exists_methods_of_not_takes htakes

/-- What is reported in place of a match are the methods that leaves which fit the request take. -/
theorem mem_reported_iff {router : Router}
    (handled : ∀ leaf ∈ Router.leaves router,
      leaf.active = true → leaf.route.handler?.isSome = true)
    (inherits : ∀ leaf ∈ Router.leaves router, leaf.Inherits)
    (h : (router.scan request).isFound = false) (method : Method) :
    method ∈ (router.scan request).reported ↔
      ∃ leaf ∈ Router.leaves router,
        leaf.fits request = true ∧ leaf.route.settings.takes method = true := by
  have missed := (missed_iff request router).2 h
  have hreported : ∀ allowed, (Outcome.ofAllowed allowed).reported = allowed := by
    intro allowed
    cases allowed <;> rfl
  rw [scan_of_missed handled inherits missed, hreported, mem_unite, Leaf.mem_gathered]
  simp only [List.not_mem_nil, false_or]
  refine exists_congr fun leaf => and_congr_right fun hl => and_congr_right fun hf => ?_
  obtain ⟨methods, hm⟩ :=
    exists_methods_of_missed (handled leaf hl) (inherits leaf hl) (missed leaf hl) hf
  rw [Settings.takes_iff_mem, Leaf.allowed, hm]
  simp

/-- A confined router reports those of its methods with which a leaf of the other one that fits the
request can be found. -/
theorem Confined.mem_reported_iff {router other : Router} (h : Router.Confined M router other)
    (handled : ∀ leaf ∈ Router.leaves router,
      leaf.active = true → leaf.route.handler?.isSome = true)
    (inherits : ∀ leaf ∈ Router.leaves router, leaf.Inherits)
    (hf : (other.scan request).isFound = false) (method : Method) :
    method ∈ (other.scan request).reported ↔ method ∈ M ∧ ∃ leaf ∈ Router.leaves router,
      leaf.fits request = true ∧ leaf.route.settings.takes method = true := by
  have handled' : ∀ leaf ∈ Router.leaves other,
      leaf.active = true → leaf.route.handler?.isSome = true := by
    intro leaf hl ha
    obtain ⟨whole, hw, hc⟩ := h.exists_leaf hl
    rw [hc.handler]
    exact handled whole hw (hc.active ▸ ha)
  have inherits' : ∀ leaf ∈ Router.leaves other, leaf.Inherits := by
    intro leaf hl
    obtain ⟨whole, hw, hc⟩ := h.exists_leaf hl
    exact hc.inherits (inherits whole hw)
  rw [Router.mem_reported_iff handled' inherits' hf]
  have hleaves := h.leaves
  generalize Router.leaves router = leaves at hleaves
  generalize Router.leaves other = others at hleaves
  clear handled handled' inherits inherits'
  induction hleaves with
  | nil => simp
  | cons hc _ ih =>
    simp only [List.mem_cons, exists_eq_or_imp, ih, hc.fits, hc.settings.takes_iff]
    tauto

end Router
end HttpRouter
