import HttpRouter.Route.Settings

set_option autoImplicit false

namespace HttpRouter

namespace Matcher

def accepts (m : Matcher) (request : Request) : Bool :=
  match m.evaluate request .empty with
  | .matched _ => true
  | .rejected | .methodMismatch _ => false

def rejects (m : Matcher) (request : Request) : Bool := m.evaluate request .empty == .rejected

theorem ofCaptures_eq_rejected (p : Pattern) (text : Text) (vars others : Vars) :
    ofCaptures (p.captures? text vars) = .rejected ↔
      ofCaptures (p.captures? text others) = .rejected := by
  unfold Pattern.captures?
  cases p.bindings? text <;> simp [ofCaptures]

theorem evaluate_eq_rejected (m : Matcher) (request : Request) (vars : Vars) :
    m.evaluate request vars = .rejected ↔ m.rejects request = true := by
  unfold rejects
  rw [beq_iff_eq]
  cases m with
  | host p | path p | pathStart p | query p => exact ofCaptures_eq_rejected p _ vars .empty
  | schemes accepted => simp only [evaluate, ofBool]; split <;> simp
  | headers required => simp only [evaluate, ofBool]; split <;> simp
  | headerExpressions required => simp only [evaluate, ofBool]; split <;> simp
  | custom holds => simp only [evaluate, ofBool]; split <;> simp
  | methods accepted => simp only [evaluate]; split <;> simp

theorem evaluate_methodMismatch {m : Matcher} {request : Request} {vars : Vars}
    {accepted : List Method} (h : m.evaluate request vars = .methodMismatch accepted) :
    m = .methods accepted ∧ request.method ∉ accepted := by
  cases m with
  | host p | path p | pathStart p | query p =>
    simp only [evaluate] at h
    unfold Pattern.captures? at h
    cases hb : p.bindings? _ <;> rw [hb] at h <;> simp [ofCaptures] at h
  | schemes accepted => simp only [evaluate, ofBool] at h; split at h <;> simp at h
  | headers required => simp only [evaluate, ofBool] at h; split at h <;> simp at h
  | headerExpressions required => simp only [evaluate, ofBool] at h; split at h <;> simp at h
  | custom holds => simp only [evaluate, ofBool] at h; split at h <;> simp at h
  | methods others =>
    simp only [evaluate] at h
    split at h
    · simp at h
    · rename_i hc
      cases h
      exact ⟨rfl, by simpa using hc⟩

theorem accepts_iff (m : Matcher) (request : Request) (vars : Vars) :
    m.accepts request = true ↔ ∃ after, m.evaluate request vars = .matched after := by
  have hr := evaluate_eq_rejected m request
  unfold accepts
  cases he : m.evaluate request .empty with
  | matched first =>
    have hn : m.evaluate request vars ≠ .rejected := by
      rw [Ne, hr, ← hr .empty, he]
      simp
    cases hv : m.evaluate request vars with
    | matched after => simp
    | rejected => exact absurd hv hn
    | methodMismatch accepted =>
      obtain ⟨rfl, hc⟩ := evaluate_methodMismatch hv
      simp [evaluate, hc] at he
  | rejected =>
    have hv : m.evaluate request vars = .rejected := (hr vars).2 ((hr .empty).1 he)
    simp [hv]
  | methodMismatch accepted =>
    obtain ⟨rfl, hc⟩ := evaluate_methodMismatch he
    simp [evaluate, hc]

end Matcher

namespace Settings

theorem judge_eq_none (request : Request) (ms : List Matcher) (vars : Vars) (wrong : Bool) :
    judge request ms vars wrong = none ↔ ∃ m ∈ ms, m.rejects request = true := by
  induction ms generalizing vars wrong with
  | nil => simp [judge]
  | cons m rest ih =>
    have hr := Matcher.evaluate_eq_rejected m request vars
    simp only [judge, List.mem_cons, exists_eq_or_imp]
    cases he : m.evaluate request vars with
    | matched after => rw [he] at hr; simp only [reduceCtorEq, false_iff] at hr; simp [ih, hr]
    | rejected => simp [hr.1 he]
    | methodMismatch accepted =>
      rw [he] at hr; simp only [reduceCtorEq, false_iff] at hr; simp [ih, hr]

/-- The flag of a judgement tells whether some method was wrong, now or before. -/
theorem judge_wrong {request : Request} {ms : List Matcher} {vars after : Vars} {wrong flag : Bool}
    (h : judge request ms vars wrong = some (after, flag)) :
    flag = (wrong || ms.any fun m => !m.accepts request) := by
  induction ms generalizing vars wrong with
  | nil =>
    cases h
    simp
  | cons m rest ih =>
    have ha := Matcher.accepts_iff m request vars
    simp only [judge] at h
    cases he : m.evaluate request vars with
    | matched next =>
      rw [he] at h
      simp [ih h, ha.2 ⟨next, he⟩]
    | rejected => simp [he] at h
    | methodMismatch accepted =>
      rw [he] at h
      have hn : m.accepts request = false := by
        rw [← Bool.not_eq_true, ha, he]
        simp
      simp [ih h, hn]

theorem judge_clean_iff (request : Request) (ms : List Matcher) (vars : Vars) :
    (∃ after, judge request ms vars false = some (after, false)) ↔
      ∀ m ∈ ms, m.accepts request = true := by
  constructor
  · rintro ⟨after, h⟩ m hm
    have hw := judge_wrong h
    simp only [Bool.false_or, Bool.false_eq, List.any_eq_false, Bool.not_eq_true',
      Bool.not_eq_false] at hw
    exact hw m hm
  · intro h
    cases hj : judge request ms vars false with
    | none =>
      obtain ⟨m, hm, hr⟩ := (judge_eq_none request ms vars false).1 hj
      obtain ⟨after, ha⟩ := (Matcher.accepts_iff m request vars).1 (h m hm)
      rw [(Matcher.evaluate_eq_rejected m request vars).2 hr] at ha
      simp at ha
    | some judged =>
      obtain ⟨after, flag⟩ := judged
      have hw := judge_wrong hj
      have hf : flag = false := by
        rw [hw, Bool.false_or, List.any_eq_false]
        intro m hm
        simp [h m hm]
      exact ⟨after, by rw [hf]⟩

end Settings
end HttpRouter
