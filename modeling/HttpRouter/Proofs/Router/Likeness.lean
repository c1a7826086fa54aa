import HttpRouter.Router.Dispatch

set_option autoImplicit false

namespace HttpRouter.Outcome

inductive Like (alike : Found → Found → Prop) : Outcome → Outcome → Prop
  | matched {found other : Found} (h : alike found other) :
      Like alike (.matched found) (.matched other)
  | methodMismatch {allowed others : List Method} (h : ∀ m, m ∈ allowed ↔ m ∈ others) :
      Like alike (.methodMismatch allowed) (.methodMismatch others)
  | redirect (location : Text) {found other : Found} (h : alike found other) :
      Like alike (.redirect location (some found)) (.redirect location (some other))
  | elsewhere (location : Text) : Like alike (.redirect location none) (.redirect location none)
  | notFound : Like alike .notFound .notFound

namespace Like

variable {alike other : Found → Found → Prop} {first second : Outcome}

theorem refl (h : ∀ found, alike found found) (outcome : Outcome) : Like alike outcome outcome := by
  cases outcome with
  | matched found => exact .matched (h found)
  | methodMismatch allowed => exact .methodMismatch fun _ => Iff.rfl
  | redirect location found =>
    cases found with
    | none => exact .elsewhere location
    | some found => exact .redirect location (h found)
  | notFound => exact .notFound

theorem isFound (h : Like alike first second) : second.isFound = first.isFound := by
  cases h <;> rfl

theorem mapFound {f g : Found → Found} (hfg : ∀ a b, alike a b → other (f a) (g b))
    (h : Like alike first second) : Like other (first.mapFound f) (second.mapFound g) := by
  cases h with
  | matched h => exact .matched (hfg _ _ h)
  | methodMismatch h => exact .methodMismatch h
  | redirect location h => exact .redirect location (hfg _ _ h)
  | elsewhere location => exact .elsewhere location
  | notFound => exact .notFound

end Like
end HttpRouter.Outcome

namespace HttpRouter.Route

/-- Routes with the same handler and the same path answer alike. -/
theorem like_answer {alike : Found → Found → Prop} {route other : Route} {vars others : Vars}
    (hh : other.handler? = route.handler?) (hp : other.settings.path = route.settings.path)
    (ha : ∀ handler, alike ⟨route, vars, handler, []⟩ ⟨other, others, handler, []⟩)
    (request : Request) : (route.answer request vars).Like alike (other.answer request others) := by
  have hs : other.settings.slashRedirect? request = route.settings.slashRedirect? request := by
    rw [Settings.slashRedirect?, Settings.slashRedirect?, hp]
  unfold answer
  rw [hh]
  cases route.handler? with
  | none => exact .notFound
  | some handler =>
    simp only [hs]
    cases route.settings.slashRedirect? request with
    | none => exact .matched (ha handler)
    | some location => exact .redirect location (ha handler)

end HttpRouter.Route
