import ShaderEffect.Proofs.Host.Call

/-!
# What the calls of passes show

To begin a pass or to commit is to be refused, or to answer as applying the pass does and to make
its device calls. What these are follows from the plan of the pass.
-/

namespace ShaderEffect

/-- What a call shows of itself: its answer and its device calls. -/
def Response.shown {α : Type} (r : Response α) : Except EffectError α × List DeviceCall :=
  (r.answer, r.calls)

namespace EffectState

/-- Beginning a pass shows what applying it does, unless it is refused. -/
lemma shown_beginPass (s : EffectState) (device p : Nat) :
    (s.beginPass device p).shown = match s.effect.phase with
      | .idle => (.error (.call .passOutsideEffect), [])
      | .begun _ (some _) => (.error (.call .passActive), [])
      | .begun _ none => match s.passInUse p with
        | .error e => (.error (.call e), [])
        | .ok (t, pass) =>
          if s.isManagerInUse device then (.error (.call .managerInUse), [])
          else (s.applyPass t p pass true).shown := by
  rw [beginPass]
  cases s.effect.phase with
  | idle => rfl
  | begun saved active =>
    cases active with
    | some pass => rfl
    | none =>
      dsimp only
      cases s.passInUse p with
      | error e => rfl
      | ok found =>
        obtain ⟨t, pass⟩ := found
        dsimp only
        cases s.isManagerInUse device with
        | true => rfl
        | false =>
          simp only [Bool.false_eq_true, if_false]
          cases hanswer : (s.applyPass t p pass true).answer with
          | ok => simp only [Response.shown, hanswer]
          | error e => rfl

/-- To commit shows what applying what changed does, unless it is refused. -/
lemma shown_commit (s : EffectState) (device : Nat) :
    (s.commit device).shown = match s.active with
      | none => (.error (.call .commitWithoutPass), [])
      | some p => match s.passInUse p with
        | .error e => (.error (.call e), [])
        | .ok (t, pass) =>
          if s.isManagerInUse device then (.error (.call .managerInUse), [])
          else (s.applyPass t p pass false).shown := by
  rw [commit]
  cases s.active with
  | none => rfl
  | some p =>
    dsimp only
    cases s.passInUse p with
    | error e => rfl
    | ok found =>
      dsimp only
      cases s.isManagerInUse device <;> rfl

variable {s : EffectState} {t p : Nat} {pass : Pass}

/-- A pass in use is one of the technique in use. -/
lemma getElem?_of_passInUse {technique : Technique} {t' : Nat}
    (htechnique : s.technique = .ok (t, technique)) (hpass : s.passInUse p = .ok (t', pass)) :
    technique.passes[p]? = some pass := by
  obtain ⟨⟨t'', found⟩, hfound, h⟩ := exists_of_bind_eq_ok hpass
  rw [htechnique] at hfound
  cases hfound
  dsimp only at h
  split at h
  · rename_i hlookup
    cases h
    exact hlookup
  · cases h

/-- A pass that is applied fails as its plan does. -/
lemma answer_applyPass (he : s.linked.Proper) (hc : s.linked.counter < s.memory.counters.size)
    (hpass : s.linked.pass? t p = some pass) (full : Bool) :
    (s.applyPass t p pass full).answer =
      (s.linked.passPlan s.memory pass).answer.mapError .evaluation := by
  have happlies := s.applies_drawn he hc hpass ⟨full, s.appliedAt t p⟩
  have hresponse : (s.applyPass t p pass full).answer =
      (s.linked.applyPass ⟨full, s.appliedAt t p⟩ pass s.drawn).answer.mapError .evaluation := by
    cases hanswer : (s.linked.applyPass ⟨full, s.appliedAt t p⟩ pass s.drawn).answer with
    | ok => rw [applyPass_of_ok hanswer]; rfl
    | error error => rw [applyPass_of_error hanswer]; rfl
  rw [hresponse, happlies.answer]

/-- What applying a pass shows: the answer and the calls of what is due of its plan. -/
lemma shown_applyPass (he : s.linked.Proper) (hc : s.linked.counter < s.memory.counters.size)
    (hpass : s.linked.pass? t p = some pass) (full : Bool) :
    (s.applyPass t p pass full).shown =
      let plan := s.linked.passPlan s.memory pass
      let due := s.linked.due s.memory ⟨full, s.appliedAt t p⟩ plan
      (plan.answer.mapError .evaluation, due.flatMap Action.calls ++
        if plan.answer = .ok () then (s.work.restart.assignAll due).flushCalls else []) :=
  Prod.ext (answer_applyPass he hc hpass full) (applied_applyPass he hc hpass full).calls

end EffectState

end ShaderEffect
