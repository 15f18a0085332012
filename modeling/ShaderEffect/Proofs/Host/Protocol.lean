import ShaderEffect.Proofs.Host.LastWrite
import ShaderEffect.Proofs.Pass.Lookup
import ShaderEffect.Proofs.Pass.Restore

/-!
# The order of calls

Between its begin and its end an effect is begun, and between their begin and their end passes are.
Calls that come out of order are turned away and change nothing, and all others are carried out;
only a pass may fail then, if the value of a state cannot be evaluated (`Host.ordered_run`).
-/

namespace ShaderEffect

namespace Operation

/-- Whether a call begins an effect. -/
def isBegin : Operation → Bool
  | .begin .. => true
  | _ => false

/-- Whether a call begins an effect and saves the states of the device. -/
def isSavingBegin : Operation → Bool
  | .begin _ flags => !flags.skipAll
  | _ => false

/-- Whether a call begins a pass of a given number. -/
def isBeginPass (p : Nat) : Operation → Bool
  | .beginPass _ p' => p' == p
  | _ => false

/-- Whether a call ends a pass. -/
def isEndPass : Operation → Bool
  | .endPass => true
  | _ => false

/-- Whether a call ends an effect. -/
def isFinish : Operation → Bool
  | .finish _ => true
  | _ => false

/-- Whether a call takes an effect on from where it stands. -/
def takesOn : Operation → Bool
  | .begin .. | .beginPass .. | .endPass | .finish _ => true
  | _ => false

/-- A call that takes an effect no further is of no kind that does. -/
lemma kinds_of_takesOn {op : Operation} (h : op.takesOn = false) :
    op.isBegin = false ∧ op.isSavingBegin = false ∧ (∀ p, op.isBeginPass p = false) ∧
      op.isEndPass = false ∧ op.isFinish = false := by
  cases op <;> first | exact ⟨rfl, rfl, fun _ => rfl, rfl, rfl⟩ | cases h

end Operation

namespace Phase

/-- Whether an effect is begun. -/
def isBegun : Phase → Bool
  | .idle => false
  | .begun .. => true

/-- Whether the states of a device are saved. -/
def hasSaved : Phase → Bool
  | .idle => false
  | .begun saved _ => saved.isSome

/-- The pass that is begun. -/
def active? : Phase → Option Nat
  | .idle => none
  | .begun _ active => active

/-- How a call that succeeds takes an effect on. -/
inductive Step : Operation → Phase → Phase → Prop
  | begin {device : Nat} {flags : BeginFlags} {phase : Phase} {saved : Option Snapshot} :
      saved.isSome = !flags.skipAll → Step (.begin device flags) phase (.begun saved none)
  | beginPass {device p : Nat} {saved : Option Snapshot} :
      Step (.beginPass device p) (.begun saved none) (.begun saved (some p))
  | endPass {saved : Option Snapshot} {p : Nat} :
      Step .endPass (.begun saved (some p)) (.begun saved none)
  | finish {device : Nat} {saved : Option Snapshot} {active : Option Nat} :
      Step (.finish device) (.begun saved active) .idle
  | stay {op : Operation} {phase : Phase} : op.takesOn = false → Step op phase phase

namespace Step

variable {op : Operation} {phase phase' : Phase} (h : Step op phase phase')
include h

lemma isBegun_iff :
    phase'.isBegun = true ↔ op.isBegin = true ∨ phase.isBegun = true ∧ ¬op.isFinish = true := by
  cases h
  case stay hstay => simp [op.kinds_of_takesOn hstay]
  all_goals simp [isBegun, Operation.isBegin, Operation.isFinish]

lemma hasSaved_iff : phase'.hasSaved = true ↔ op.isSavingBegin = true ∨
    phase.hasSaved = true ∧ ¬(op.isBegin || op.isFinish) = true := by
  cases h
  case begin hsaved =>
    rw [hasSaved, hsaved]
    simp [Operation.isSavingBegin, Operation.isBegin]
  case stay hstay => simp [op.kinds_of_takesOn hstay]
  all_goals simp [hasSaved, Operation.isSavingBegin, Operation.isBegin, Operation.isFinish]

lemma active?_iff (p : Nat) : phase'.active? = some p ↔ op.isBeginPass p = true ∨
    phase.active? = some p ∧ ¬(op.isBegin || op.isEndPass || op.isFinish) = true := by
  cases h
  case stay hstay => simp [op.kinds_of_takesOn hstay]
  all_goals simp [active?, Operation.isBeginPass, Operation.isBegin, Operation.isEndPass,
    Operation.isFinish]

end Step

end Phase

namespace EffectState

variable {s : EffectState}

lemma active_eq (s : EffectState) : s.active = s.effect.phase.active? := by
  rw [active]
  cases s.effect.phase <;> rfl

/-! ### What calls come to -/

/-- The number of passes of the technique in use. -/
def passCount (s : EffectState) : Nat :=
  match s.technique with
  | .ok (_, technique) => technique.passes.length
  | .error _ => 0

lemma exists_of_lt_passCount {p : Nat} (h : p < s.passCount) :
    ∃ t pass, s.passInUse p = .ok (t, pass) := by
  rw [passCount] at h
  cases htechnique : s.technique with
  | error e => simp [htechnique] at h
  | ok result =>
    obtain ⟨t, technique⟩ := result
    rw [htechnique] at h
    refine ⟨t, technique.passes[p], ?_⟩
    rw [passInUse, htechnique]
    simp only [bind, Except.bind, List.getElem?_eq_getElem h]
    rfl

lemma passInUse_eq_error_of_le {p : Nat} (h : s.passCount ≤ p) :
    ∃ e, e ≠ .managerInUse ∧ s.passInUse p = .error e := by
  rw [passCount] at h
  cases htechnique : s.technique with
  | error e =>
    refine ⟨e, ?_, by rw [passInUse, htechnique]; rfl⟩
    rw [technique] at htechnique
    rintro rfl
    split at htechnique
    · cases htechnique
    · split at htechnique <;> cases htechnique
  | ok result =>
    obtain ⟨t, technique⟩ := result
    rw [htechnique] at h
    refine ⟨.passOutOfRange, by decide, ?_⟩
    rw [passInUse, htechnique]
    simp only [bind, Except.bind, List.getElem?_eq_none h]
    rfl

/-- A pass is applied, or the value of a state cannot be evaluated. -/
lemma applyPass_ok_or_error (s : EffectState) (t p : Nat) (pass : Pass) (full : Bool) :
    (s.applyPass t p pass full).answer = .ok () ∨
      ∃ e, (s.applyPass t p pass full).answer = .error (.evaluation e) := by
  rw [applyPass]
  dsimp only
  split
  · exact .inl rfl
  · exact .inr ⟨_, rfl⟩

/-- The effect is begun, none of its passes is, and it has the pass. -/
structure Awaits (s : EffectState) (p : Nat) : Prop where
  begun : s.effect.phase.isBegun = true
  active : s.active = none
  lt : p < s.passCount

lemma Awaits.exists_phase_eq {p : Nat} (h : s.Awaits p) :
    ∃ saved, s.effect.phase = .begun saved none := by
  have hbegun := h.begun
  have hactive := h.active
  rw [active_eq] at hactive
  cases hphase : s.effect.phase with
  | idle =>
    rw [hphase] at hbegun
    cases hbegun
  | begun saved active =>
    rw [hphase] at hactive
    obtain rfl : active = none := hactive
    exact ⟨saved, rfl⟩

/-- What it comes to when a pass is begun. -/
theorem beginPass_cases (device p : Nat) :
    (¬s.Awaits p ∧ ∃ e, e ≠ .managerInUse ∧ s.beginPass device p = s.refuse e) ∨
    s.Awaits p ∧ (s.isManagerInUse device = true ∧ s.beginPass device p = s.refuse .managerInUse ∨
      ∃ t pass, s.passInUse p = .ok (t, pass) ∧
        ((s.applyPass t p pass true).answer = .ok () ∧ s.beginPass device p =
            { s.applyPass t p pass true with
              state := (s.applyPass t p pass true).state.setActive (some p) } ∨
          (∃ e, (s.applyPass t p pass true).answer = .error (.evaluation e)) ∧
            s.beginPass device p = s.applyPass t p pass true)) := by
  cases hphase : s.effect.phase with
  | idle =>
    refine .inl ⟨fun h => ?_, .passOutsideEffect, by decide, by rw [beginPass, hphase]⟩
    have hbegun := h.begun
    rw [hphase] at hbegun
    cases hbegun
  | begun saved active =>
    cases active with
    | some p' =>
      refine .inl ⟨fun h => ?_, .passActive, by decide, by rw [beginPass, hphase]⟩
      have hactive := h.active
      rw [active_eq, hphase] at hactive
      cases hactive
    | none =>
      by_cases hp : p < s.passCount
      · obtain ⟨t, pass, hpass⟩ := exists_of_lt_passCount hp
        refine .inr ⟨⟨by rw [hphase]; rfl, by rw [active_eq, hphase]; rfl, hp⟩, ?_⟩
        rw [beginPass, hphase, hpass]
        dsimp only
        split
        case isTrue hinUse => exact .inl ⟨hinUse, rfl⟩
        case isFalse =>
          refine .inr ⟨t, pass, rfl, ?_⟩
          rcases s.applyPass_ok_or_error t p pass true with hok | ⟨e, hfail⟩
          · exact .inl ⟨hok, by rw [hok]⟩
          · exact .inr ⟨⟨e, hfail⟩, by rw [hfail]⟩
      · obtain ⟨e, hne, hpass⟩ := passInUse_eq_error_of_le (Nat.le_of_not_lt hp)
        exact .inl ⟨fun h => hp h.lt, e, hne, by rw [beginPass, hphase, hpass]⟩

/-- A pass that was begun was awaited. -/
lemma awaits_of_ok {device p : Nat} (h : (s.beginPass device p).answer = .ok ()) : s.Awaits p := by
  rcases s.beginPass_cases device p with ⟨-, e, -, heq⟩ | ⟨hawaits, -⟩
  · rw [heq] at h
    cases h
  · exact hawaits

/-- What it comes to when a pass is committed. -/
theorem commit_cases (device : Nat) :
    ((∀ p, s.active = some p → s.passCount ≤ p) ∧
      ∃ e, e ≠ .managerInUse ∧ s.commit device = s.refuse e) ∨
    ∃ p, s.active = some p ∧ p < s.passCount ∧
      (s.isManagerInUse device = true ∧ s.commit device = s.refuse .managerInUse ∨
        ∃ t pass, s.passInUse p = .ok (t, pass) ∧
          s.commit device = s.applyPass t p pass false) := by
  cases hactive : s.active with
  | none =>
    exact .inl ⟨fun p hp => (by cases hp), .commitWithoutPass, by decide, by rw [commit, hactive]⟩
  | some p =>
    by_cases hp : p < s.passCount
    · obtain ⟨t, pass, hpass⟩ := exists_of_lt_passCount hp
      refine .inr ⟨p, rfl, hp, ?_⟩
      rw [commit, hactive]
      dsimp only
      rw [hpass]
      dsimp only
      split
      case isTrue hinUse => exact .inl ⟨hinUse, rfl⟩
      case isFalse => exact .inr ⟨t, pass, rfl, rfl⟩
    · have hle := Nat.le_of_not_lt hp
      obtain ⟨e, hne, hpass⟩ := passInUse_eq_error_of_le hle
      refine .inl ⟨fun p' hp' => ?_, e, hne, ?_⟩
      · cases hp'
        exact hle
      · rw [commit, hactive]
        dsimp only
        rw [hpass]

/-! ### Where an effect stands -/

lemma phase_setActive {saved : Option Snapshot} {active : Option Nat}
    (hphase : s.effect.phase = .begun saved active) (pass : Option Nat) :
    (s.setActive pass).effect.phase = .begun saved pass := by
  rw [setActive, hphase]

/-- A call that succeeds takes an effect on, and any other leaves it where it stands. -/
def Follows (s : EffectState) (op : Operation) (r : Response Unit) : Prop :=
  r.answer = .ok () ∧ Phase.Step op s.effect.phase r.state.effect.phase ∨
    r.answer ≠ .ok () ∧ r.state.effect.phase = s.effect.phase

namespace Follows

variable {op : Operation}

lemma refuse (s : EffectState) (op : Operation) (e : CallError) : s.Follows op (s.refuse e) :=
  .inr ⟨fun h => (by cases h), rfl⟩

lemma of_phase_eq {r : Response Unit} (hop : op.takesOn = false)
    (hphase : r.state.effect.phase = s.effect.phase) : s.Follows op r := by
  by_cases hok : r.answer = .ok ()
  · exact .inl ⟨hok, hphase ▸ .stay hop⟩
  · exact .inr ⟨hok, hphase⟩

end Follows

lemma follows_begin (devices : Nat → Device) (device : Nat) (flags : BeginFlags) :
    s.Follows (.begin device flags) (s.perform devices (.begin device flags)) := by
  rw [perform, EffectState.begin]
  split
  · exact .refuse ..
  · dsimp only
    split
    · rename_i hskip
      exact .inl ⟨rfl, .begin (by rw [hskip]; rfl)⟩
    · rename_i hskip
      exact .inl ⟨rfl, .begin (by rw [Bool.eq_false_iff.2 hskip]; rfl)⟩

lemma follows_beginPass (device p : Nat) :
    s.Follows (.beginPass device p) (s.beginPass device p) := by
  rcases s.beginPass_cases device p with ⟨-, e, -, heq⟩ | ⟨hawaits, ⟨-, heq⟩ | ⟨t, pass, -, hr⟩⟩
  · rw [heq]
    exact .refuse ..
  · rw [heq]
    exact .refuse ..
  · have hphase := s.phase_applyPass t p pass true
    rcases hr with ⟨hok, heq⟩ | ⟨⟨e, hfail⟩, heq⟩ <;> rw [heq]
    · obtain ⟨saved, hbegun⟩ := hawaits.exists_phase_eq
      refine .inl ⟨hok, ?_⟩
      dsimp only
      rw [phase_setActive (hphase.trans hbegun), hbegun]
      exact .beginPass
    · exact .inr ⟨(by rw [hfail]; exact fun h => by cases h), hphase⟩

lemma phase_commit (device : Nat) : (s.commit device).state.effect.phase = s.effect.phase := by
  rcases s.commit_cases device with ⟨-, e, -, heq⟩ | ⟨p, -, -, ⟨-, heq⟩ | ⟨t, pass, -, heq⟩⟩ <;>
    rw [heq]
  · rfl
  · rfl
  · exact s.phase_applyPass t p pass false

lemma follows_endPass : s.Follows .endPass (s.orKeep s.endPass) := by
  rw [endPass, active_eq]
  cases hphase : s.effect.phase with
  | idle => exact .refuse ..
  | begun saved active =>
    cases active with
    | none => exact .refuse ..
    | some p =>
      refine .inl ⟨rfl, ?_⟩
      have hnone := phase_setActive hphase none
      rw [hphase]
      exact hnone ▸ .endPass

lemma follows_finish (device : Nat) : s.Follows (.finish device) s.finish := by
  rw [finish]
  split
  · exact .refuse ..
  · rename_i hphase
    exact .inl ⟨rfl, hphase ▸ .finish⟩

/-- Every call takes an effect on, or leaves it where it stands. -/
theorem follows_perform (hc : s.linked.counter < s.memory.counters.size) (devices : Nat → Device)
    (op : Operation) : s.Follows op (s.perform devices op) := by
  by_cases hvalues : op.setsValues = true
  · have hphase := (stays_leaves_of_setValues hc devices hvalues).1.phase
    refine .of_phase_eq ?_ hphase
    cases op <;> first | rfl | cases hvalues
  cases op with
  | setTechnique t =>
    refine .of_phase_eq rfl ?_
    rw [perform, setTechnique]
    split <;> rfl
  | setManager manager => exact .of_phase_eq rfl rfl
  | begin device flags => exact follows_begin devices device flags
  | beginPass device p => exact follows_beginPass device p
  | commit device => exact .of_phase_eq rfl (phase_commit device)
  | endPass => exact follows_endPass
  | finish device => exact follows_finish device
  | _ => exact absurd rfl hvalues

/-! ### Errors -/

variable {devices : Nat → Device} {op : Operation}

section

variable {e : EffectError}

lemma exists_of_eq_refuse {r : Response Unit} {e' : CallError} (hr : r = s.refuse e')
    (h : r.answer = .error e) : ∃ e', e = .call e' ∧ r = s.refuse e' := by
  subst hr
  cases h
  exact ⟨e', rfl, rfl⟩

lemma exists_of_orKeep {result : Except CallError EffectState}
    (h : (s.orKeep result).answer = .error e) :
    ∃ e', e = .call e' ∧ s.orKeep result = s.refuse e' := by
  cases result with
  | error e' => exact exists_of_eq_refuse rfl h
  | ok s' => cases h

lemma exists_of_applyPass {t p : Nat} {pass : Pass} {full : Bool}
    (h : (s.applyPass t p pass full).answer = .error e) : ∃ e', e = .evaluation e' := by
  rcases s.applyPass_ok_or_error t p pass full with hok | ⟨e', hfail⟩
  · cases hok.symm.trans h
  · exact ⟨e', Except.error.inj (h.symm.trans hfail)⟩

lemma beginPass_of_error {device p : Nat} (h : (s.beginPass device p).answer = .error e) :
    (∃ e', e = .call e' ∧ s.beginPass device p = s.refuse e') ∨ ∃ e', e = .evaluation e' := by
  rcases s.beginPass_cases device p with ⟨-, e', -, heq⟩ | ⟨-, ⟨-, heq⟩ | ⟨t, pass, -, hr⟩⟩
  · exact .inl (exists_of_eq_refuse heq h)
  · exact .inl (exists_of_eq_refuse heq h)
  · rcases hr with ⟨hok, heq⟩ | ⟨-, heq⟩ <;> rw [heq] at h
    · cases hok.symm.trans h
    · exact .inr (exists_of_applyPass h)

lemma commit_of_error {device : Nat} (h : (s.commit device).answer = .error e) :
    (∃ e', e = .call e' ∧ s.commit device = s.refuse e') ∨ ∃ e', e = .evaluation e' := by
  rcases s.commit_cases device with ⟨-, e', -, heq⟩ | ⟨p, -, -, ⟨-, heq⟩ | ⟨t, pass, -, heq⟩⟩
  · exact .inl (exists_of_eq_refuse heq h)
  · exact .inl (exists_of_eq_refuse heq h)
  · rw [heq] at h
    exact .inr (exists_of_applyPass h)

/-- A call that breaks a precondition is refused as a whole, and only a pass can fail otherwise. -/
theorem perform_of_error (h : (s.perform devices op).answer = .error e) :
    (∃ e', e = .call e' ∧ s.perform devices op = s.refuse e') ∨
      op.appliesPass = true ∧ ∃ e', e = .evaluation e' := by
  cases op with
  | begin device flags =>
    refine .inl ?_
    rw [perform, EffectState.begin] at h ⊢
    split at h
    · exact exists_of_eq_refuse rfl h
    · dsimp only at h
      split at h <;> cases h
  | beginPass device p => exact (beginPass_of_error h).imp_right fun h => ⟨rfl, h⟩
  | commit device => exact (commit_of_error h).imp_right fun h => ⟨rfl, h⟩
  | setManager manager => cases h
  | finish device =>
    refine .inl ?_
    rw [perform, finish] at h ⊢
    split at h
    · exact exists_of_eq_refuse rfl h
    · cases h
  | _ => exact .inl (exists_of_orKeep h)

end

/-- A call does not get past the checks of the effect. That the caller's device is in use already is
found out after these. -/
def TurnsAway (s : EffectState) (devices : Nat → Device) (op : Operation) : Prop :=
  ∃ e, e ≠ .managerInUse ∧ s.perform devices op = s.refuse e

lemma eq_of_refuse_eq {e e' : CallError} (h : (s.refuse e : Response Unit) = s.refuse e') :
    e = e' :=
  EffectError.call.inj (Except.error.inj (congrArg Response.answer h))

/-- A pass that was applied was not refused. -/
lemma ne_refuse {r : Response Unit}
    (h : r.answer = .ok () ∨ ∃ e, r.answer = .error (.evaluation e)) (e : CallError) :
    r ≠ s.refuse e := by
  rintro rfl
  rcases h with h | ⟨e', h⟩ <;> cases h

/-- A pass that is awaited is only refused if the caller's device is in use. -/
lemma beginPass_eq_refuse {device p : Nat} {e : CallError} (h : s.beginPass device p = s.refuse e) :
    ¬s.Awaits p ∧ e ≠ .managerInUse ∨ e = .managerInUse ∧ s.isManagerInUse device = true := by
  rcases s.beginPass_cases device p with
    ⟨hnot, e', hne, heq⟩ | ⟨-, ⟨hinUse, heq⟩ | ⟨t, pass, -, hr⟩⟩
  · exact .inl ⟨hnot, eq_of_refuse_eq (heq.symm.trans h) ▸ hne⟩
  · exact .inr ⟨eq_of_refuse_eq (h.symm.trans heq), hinUse⟩
  · refine absurd h (ne_refuse ?_ e)
    rcases hr with ⟨hok, heq⟩ | ⟨hfail, heq⟩ <;> rw [heq]
    · exact .inl hok
    · exact .inr hfail

/-- A commit is only refused if no pass is begun that the technique in use has, or if the caller's
device is in use. -/
lemma commit_eq_refuse {device : Nat} {e : CallError} (h : s.commit device = s.refuse e) :
    (∀ p, s.active = some p → s.passCount ≤ p) ∧ e ≠ .managerInUse ∨
      e = .managerInUse ∧ s.isManagerInUse device = true := by
  rcases s.commit_cases device with
    ⟨hnot, e', hne, heq⟩ | ⟨p, -, -, ⟨hinUse, heq⟩ | ⟨t, pass, -, heq⟩⟩
  · exact .inl ⟨hnot, eq_of_refuse_eq (heq.symm.trans h) ▸ hne⟩
  · exact .inr ⟨eq_of_refuse_eq (h.symm.trans heq), hinUse⟩
  · exact absurd (heq.symm.trans h) (ne_refuse (s.applyPass_ok_or_error t p pass false) e)

/-- A pass gets past the checks if it is awaited. -/
theorem turnsAway_beginPass_iff (device p : Nat) :
    s.TurnsAway devices (.beginPass device p) ↔ ¬s.Awaits p := by
  constructor
  · rintro ⟨e, hne, heq⟩
    rcases beginPass_eq_refuse heq with ⟨hnot, -⟩ | ⟨hinUse, -⟩
    · exact hnot
    · exact absurd hinUse hne
  · intro hnot
    rcases s.beginPass_cases device p with ⟨-, hrefused⟩ | ⟨hawaits, -⟩
    · exact hrefused
    · exact absurd hawaits hnot

/-- A commit gets past the checks if a pass is begun that the technique in use has. -/
theorem turnsAway_commit_iff (hlt : ∀ p, s.active = some p → p < s.passCount) (device : Nat) :
    s.TurnsAway devices (.commit device) ↔ s.active = none := by
  constructor
  · rintro ⟨e, hne, heq⟩
    rcases commit_eq_refuse heq with ⟨hnot, -⟩ | ⟨hinUse, -⟩
    · refine Option.eq_none_iff_forall_ne_some.2 fun p hp => ?_
      exact absurd (hlt p hp) (Nat.not_lt.2 (hnot p hp))
    · exact absurd hinUse hne
  · intro hnone
    rcases s.commit_cases device with ⟨-, hrefused⟩ | ⟨p, hactive, -⟩
    · exact hrefused
    · cases hnone.symm.trans hactive

/-- The end of a pass gets past the checks if a pass is begun. -/
theorem turnsAway_endPass_iff : s.TurnsAway devices .endPass ↔ s.active = none := by
  rw [TurnsAway, perform, endPass]
  cases s.active with
  | none => exact iff_of_true ⟨.endPassWithoutPass, by decide, rfl⟩ rfl
  | some p =>
    refine iff_of_false ?_ fun h => by cases h
    rintro ⟨e, -, heq⟩
    cases congrArg Response.answer heq

/-- The end of an effect gets past the checks if the effect is begun. -/
theorem turnsAway_finish_iff (device : Nat) :
    s.TurnsAway devices (.finish device) ↔ s.effect.phase.isBegun = false := by
  rw [TurnsAway, perform, finish]
  cases s.effect.phase with
  | idle => exact iff_of_true ⟨.endWithoutBegin, by decide, rfl⟩ rfl
  | begun saved active =>
    refine iff_of_false ?_ fun h => by cases h
    rintro ⟨e, -, heq⟩
    cases congrArg Response.answer heq

section

variable {device p : Nat} {e : EvaluationError}

/-- No pass is begun after one could not be. -/
lemma active_of_beginPass_fails (h : (s.beginPass device p).answer = .error (.evaluation e)) :
    (s.beginPass device p).state.active = none := by
  rcases follows_beginPass (s := s) device p with ⟨hok, -⟩ | ⟨-, hphase⟩
  · cases hok.symm.trans h
  · rw [active_eq, hphase, ← active_eq]
    rcases s.beginPass_cases device p with ⟨-, e', -, heq⟩ | ⟨hawaits, -⟩
    · rw [heq] at h
      cases h
    · exact hawaits.active

/-- The same pass is begun after one could not be committed. -/
lemma active_of_commit_fails (h : (s.commit device).answer = .error (.evaluation e)) :
    ∃ p, s.active = some p ∧ (s.commit device).state.active = some p := by
  rcases s.commit_cases device with ⟨-, e', -, heq⟩ | ⟨p, hactive, -⟩
  · rw [heq] at h
    cases h
  · refine ⟨p, hactive, ?_⟩
    rw [active_eq, phase_commit, ← active_eq, hactive]

end

/-- Only `setTechnique` chooses another technique. -/
lemma technique_perform (he : s.linked.Proper) (hc : s.linked.counter < s.memory.counters.size)
    (hop : ∀ t, op ≠ .setTechnique t) :
    (s.perform devices op).state.technique = s.technique := by
  refine technique_congr (leaves_perform he hc devices op).linked ?_
  by_cases hkeeps : op.keepsBegun = true
  · exact (continued_perform he hc devices hkeeps).technique
  · cases op with
    | setTechnique t => exact absurd rfl (hop t)
    | setManager manager => rfl
    | begin device flags =>
      rcases begun_begin he hc (devices device) flags with ⟨e, hrefused⟩ | hbegun
      · rw [perform, hrefused]
        rfl
      · obtain ⟨saved, lights, material, heffect⟩ := hbegun.effect
        rw [perform, Response.forget, heffect]
    | finish device =>
      rw [perform, finish]
      split <;> rfl
    | _ => exact absurd rfl hkeeps

lemma passCount_congr {s' : EffectState} (h : s'.technique = s.technique) :
    s'.passCount = s.passCount := by
  rw [passCount, passCount, h]

/-- A pass that is begun stays one of the technique in use, unless another one is chosen. -/
lemma active_lt_passCount_perform (he : s.linked.Proper)
    (hc : s.linked.counter < s.memory.counters.size)
    (hlt : ∀ p, s.active = some p → p < s.passCount)
    (hop : ∀ t, op = .setTechnique t → s.active = none) :
    ∀ p, (s.perform devices op).state.active = some p →
      p < (s.perform devices op).state.passCount := by
  intro p hp
  have htechnique : (∀ t, op ≠ .setTechnique t) →
      (s.perform devices op).state.passCount = s.passCount := fun hne =>
    passCount_congr (technique_perform he hc hne)
  have hold : (s.perform devices op).state.effect.phase = s.effect.phase →
      p < (s.perform devices op).state.passCount := by
    intro hphase
    rw [active_eq, hphase, ← active_eq] at hp
    rw [htechnique fun t ht => ?_]
    · exact hlt p hp
    · rw [hop t ht] at hp
      cases hp
  rcases follows_perform hc devices op with ⟨hok, hstep⟩ | ⟨-, hphase⟩
  · rw [active_eq] at hp
    generalize hphase' : (s.perform devices op).state.effect.phase = phase' at hstep hp hold
    generalize hphase : s.effect.phase = phase at hstep hold
    cases hstep with
    | @beginPass device p' saved =>
      obtain rfl : p' = p := Option.some.inj hp
      rw [htechnique fun t ht => by cases ht]
      exact (awaits_of_ok hok).lt
    | begin | endPass | finish => cases hp
    | stay => exact hold rfl
  · exact hold hphase

end EffectState

/-! ### What happened before -/

namespace Host

/-- A call of a kind to an effect succeeds. -/
def Succeeds (i : Nat) (kind : Operation → Bool) (host : Host) (op : HostOperation) : Prop :=
  ∃ op' s, op = .call i op' ∧ host.state? i = some s ∧ kind op' = true ∧
    (s.perform host.device op').answer = .ok ()

/-- In a run a call of a kind to an effect succeeded, and none of another kind has since. -/
def Since (i : Nat) (kind stop : Operation → Bool) (ops : List HostOperation) : Prop :=
  ∃ before op after, ops = before ++ op :: after ∧ (run {} before).Succeeds i kind op ∧
    Keeps (fun host op => ¬host.Succeeds i stop op) (run {} (before ++ [op])) after

variable {host : Host} {i : Nat} {kind stop : Operation → Bool} {ops : List HostOperation}
  {op : HostOperation} {s : EffectState}

lemma succeeds_call_iff (hs : host.state? i = some s) (op : Operation) :
    host.Succeeds i kind (.call i op) ↔
      kind op = true ∧ (s.perform host.device op).answer = .ok () := by
  constructor
  · rintro ⟨op', s', hop, hs', h⟩
    obtain rfl := Option.some.inj (hs.symm.trans hs')
    cases hop
    exact h
  · exact fun h => ⟨op, s, rfl, hs, h⟩

lemma not_succeeds (hop : ∀ op', op ≠ .call i op') : ¬host.Succeeds i kind op :=
  fun ⟨op', _, h, _⟩ => hop op' h

lemma since_snoc : Since i kind stop (ops ++ [op]) ↔
    (run {} ops).Succeeds i kind op ∨ Since i kind stop ops ∧ ¬(run {} ops).Succeeds i stop op := by
  constructor
  · rintro ⟨before, first, after, heq, hfirst, hafter⟩
    rcases List.eq_nil_or_concat after with rfl | ⟨after, last, rfl⟩
    · obtain ⟨rfl, hop⟩ := List.append_inj' heq rfl
      cases hop
      exact .inl hfirst
    · rw [List.concat_eq_append] at heq hafter
      rw [← List.cons_append, ← List.append_assoc] at heq
      obtain ⟨rfl, hop⟩ := List.append_inj' heq rfl
      cases hop
      obtain ⟨hkeeps, hlast, -⟩ := keeps_append.1 hafter
      rw [← run_append, List.append_assoc, List.singleton_append] at hlast
      exact .inr ⟨⟨before, first, after, rfl, hfirst, hkeeps⟩, hlast⟩
  · rintro (hop | ⟨⟨before, first, after, rfl, hfirst, hafter⟩, hop⟩)
    · exact ⟨ops, op, [], rfl, hop, trivial⟩
    · refine ⟨before, first, after ++ [op], by simp, hfirst, keeps_append.2 ⟨hafter, ?_, trivial⟩⟩
      rwa [← run_append, List.append_assoc, List.singleton_append]

/-- Only an effect that is there can have been called. -/
lemma Since.lt (h : Since i kind stop ops) : i < (run {} ops).effects.size := by
  obtain ⟨before, op, after, rfl, ⟨op', s, -, hs, -⟩, -⟩ := h
  rw [run_append]
  exact Nat.lt_of_lt_of_le (lt_of_state? hs) (size_effects_run _ _)

/-- An effect that was just made is not begun. -/
lemma phase_of_new (hi : host.effects.size ≤ i) (hs : (host.perform op).state? i = some s) :
    s.effect.phase = .idle := by
  have hlt := lt_of_state? hs
  -- Calls and drops leave the number of effects alone, and what adds an effect adds an idle one.
  by_cases hcall : ∃ j op', op = .call j op'
  · obtain ⟨j, op', rfl⟩ := hcall
    cases hj : host.state? j with
    | none =>
      rw [perform_call_of_none hj] at hlt
      exact absurd hlt (Nat.not_lt.2 hi)
    | some s' =>
      rw [(perform_call hj op').2.1, Array.size_setIfInBounds] at hlt
      exact absurd hlt (Nat.not_lt.2 hi)
  by_cases hdrop : ∃ j, op = .drop j
  · obtain ⟨j, rfl⟩ := hdrop
    rw [perform, Host.drop, Array.size_setIfInBounds] at hlt
    exact absurd hlt (Nat.not_lt.2 hi)
  obtain ⟨h | ⟨effect, hidle, h⟩, -⟩ :=
    host.effects_perform (fun j op' h => hcall ⟨j, op', h⟩) fun j h => hdrop ⟨j, h⟩
  · rw [h] at hlt
    exact absurd hlt (Nat.not_lt.2 hi)
  · have heffect := (state?_eq_some.1 hs).1
    rw [h, Array.getElem?_push] at heffect
    split at heffect
    · cases heffect
      exact hidle
    · exact absurd (Array.getElem?_eq_some_iff.1 heffect).1 (Nat.not_lt.2 hi)

/-- What holds of effects that were just made, and is kept by calls to an effect and by whatever
leaves it alone, holds of every effect that there is after a run. -/
theorem effect_induction {i : Nat} {motive : List HostOperation → EffectState → Prop}
    (hnew : ∀ ops op s, (run {} ops).effects.size ≤ i → s.effect.phase = .idle →
      motive (ops ++ [op]) s)
    (hcall : ∀ ops op s, (run {} ops).state? i = some s → motive ops s →
      motive (ops ++ [.call i op]) (s.perform (run {} ops).device op).state)
    (hother : ∀ ops op s s', (∀ op', op ≠ .call i op') → s'.effect = s.effect → motive ops s →
      motive (ops ++ [op]) s')
    {ops : List HostOperation} {s : EffectState} (hs : (run {} ops).state? i = some s) :
    motive ops s := by
  -- From the end of the run: the effect was there before the last operation, or that made it.
  induction ops using List.reverseRecOn generalizing s with
  | nil => simp [run, state?] at hs
  | append_singleton ops op ih =>
    rw [run_snoc] at hs
    by_cases hi : i < (run {} ops).effects.size
    · obtain ⟨s₀, hs₀, ⟨op', rfl, rfl⟩ | ⟨hop, -, heffect⟩⟩ := state?_perform hi hs
      · exact hcall ops op' s₀ hs₀ (ih hs₀)
      · exact hother ops op s₀ s hop heffect (ih hs₀)
    · exact hnew ops op s (Nat.le_of_not_lt hi) (phase_of_new (Nat.le_of_not_lt hi) hs)

/-- What calls of a kind bring about and calls of another kind end holds of where an effect stands
if the former happened, and the latter have not since. -/
lemma since_iff {motive : Phase → Prop} (hidle : ¬motive .idle)
    (hstep : ∀ op phase phase', Phase.Step op phase phase' →
      (motive phase' ↔ kind op = true ∨ motive phase ∧ ¬stop op = true))
    (hs : (run {} ops).state? i = some s) : motive s.effect.phase ↔ Since i kind stop ops := by
  refine effect_induction (motive := fun ops s => motive s.effect.phase ↔ Since i kind stop ops)
    (fun ops op s hi hphase => ?_) (fun ops op s hs ih => ?_)
    (fun ops op s s' hop heffect ih => ?_) hs
  · -- A call to an effect is to one that is there, so none was before it was made.
    rw [hphase]
    refine iff_of_false hidle fun h => ?_
    rcases since_snoc.1 h with ⟨op', s', -, hs', -⟩ | ⟨hsince, -⟩
    · exact absurd (lt_of_state? hs') (Nat.not_lt.2 hi)
    · exact absurd hsince.lt (Nat.not_lt.2 hi)
  · have hlaid : (run {} ops).LaidOut := Reachable.laidOut ⟨ops, rfl⟩
    rw [since_snoc, succeeds_call_iff hs, succeeds_call_iff hs, ← ih]
    rcases EffectState.follows_perform (hlaid.counter_lt hs) (run {} ops).device op with
      ⟨hok, hstep'⟩ | ⟨hfail, hphase⟩
    · simp only [hok, and_true]
      exact hstep op _ _ hstep'
    · simp only [hphase, hfail, and_false, false_or, not_false_eq_true, and_true]
  · rw [heffect, since_snoc, ih]
    simp only [not_succeeds hop, false_or, not_false_eq_true, and_true]

/-! ### The order of calls -/

/-- No technique of an effect is chosen while one of its passes is begun. -/
def KeepsTechnique (i : Nat) (host : Host) (op : HostOperation) : Prop :=
  ∀ t s, op = .call i (.setTechnique t) → host.state? i = some s → s.active = none

/-- A pass that is begun is one of the technique in use, if none is chosen meanwhile. -/
lemma active_lt_passCount (hkeeps : Keeps (KeepsTechnique i) {} ops)
    (hs : (run {} ops).state? i = some s) : ∀ p, s.active = some p → p < s.passCount := by
  refine effect_induction (motive := fun ops s => Keeps (KeepsTechnique i) {} ops →
      ∀ p, s.active = some p → p < s.passCount)
    (fun ops op s _ hphase _ p hp => ?_) (fun ops op s hs ih hkeeps => ?_)
    (fun ops op s s' _ heffect ih hkeeps => ?_) hs hkeeps
  · rw [EffectState.active_eq, hphase] at hp
    cases hp
  · obtain ⟨hkeeps, hop, -⟩ := keeps_append.1 hkeeps
    have hlaid : (run {} ops).LaidOut := Reachable.laidOut ⟨ops, rfl⟩
    exact EffectState.active_lt_passCount_perform (hlaid.proper hs) (hlaid.counter_lt hs)
      (ih hkeeps) fun t ht => hop t s (by rw [ht]) hs
  · have htechnique : s'.technique = s.technique := by
      rw [EffectState.technique, EffectState.technique, EffectState.linked, heffect]
    rw [EffectState.active_eq, heffect, ← EffectState.active_eq,
      EffectState.passCount_congr htechnique]
    exact ih (keeps_append.1 hkeeps).1

/-- A host that differs from another in no value, effect, pool or device. -/
structure Same (host host' : Host) : Prop where
  memory : host'.memory = host.memory
  effects : host'.effects = host.effects
  pools : host'.pools = host.pools
  devices : ∀ d, host'.device d = host.device d

lemma same_of_refused {op : Operation} {e : CallError} (hs : host.state? i = some s)
    (h : s.perform host.device op = s.refuse e) : host.Same (host.perform (.call i op)) := by
  obtain ⟨hmemory, heffects, -⟩ := perform_call hs op
  obtain ⟨heffect, hmemory'⟩ := state?_eq_some.1 hs
  rw [h] at hmemory heffects
  refine ⟨hmemory.trans hmemory', heffects.trans ?_, pools_perform_call host i op,
    fun d => device_perform_of_refused hs h⟩
  apply Array.ext_getElem?
  intro j
  rw [Array.getElem?_setIfInBounds]
  split
  · rename_i hij
    subst hij
    rw [if_pos (lt_of_state? hs), heffect]
    rfl
  · rfl

/-- What may be called when, and what comes of it, for an effect after a run. -/
structure Ordered (ops : List HostOperation) (i : Nat) (s : EffectState) : Prop where
  /-- An effect is begun from its begin to its end. -/
  begun : s.effect.phase.isBegun = true ↔ Since i Operation.isBegin Operation.isFinish ops
  /-- States of a device are saved from a begin that saves them to the next begin or the end. -/
  saved : s.effect.phase.hasSaved = true ↔
    Since i Operation.isSavingBegin (fun op => op.isBegin || op.isFinish) ops
  /-- A pass is begun from its begin to its end, or to the next begin or the end of the effect. -/
  active : ∀ p, s.active = some p ↔
    Since i (Operation.isBeginPass p) (fun op => op.isBegin || op.isEndPass || op.isFinish) ops
  within : s.effect.phase.hasSaved = true ∨ s.active ≠ none → s.effect.phase.isBegun = true
  beginPass : ∀ device p, s.TurnsAway (run {} ops).device (.beginPass device p) ↔
    ¬s.Awaits p
  commit : ∀ device, s.TurnsAway (run {} ops).device (.commit device) ↔ s.active = none
  endPass : s.TurnsAway (run {} ops).device .endPass ↔ s.active = none
  finish : ∀ device, s.TurnsAway (run {} ops).device (.finish device) ↔
    s.effect.phase.isBegun = false
  /-- What passes the checks is refused only if the caller's device is in use already. -/
  inUse : ∀ op device, (op = .commit device ∨ ∃ p, op = .beginPass device p) →
    s.perform (run {} ops).device op = s.refuse .managerInUse → s.isManagerInUse device = true
  /-- A call that breaks a precondition changes nothing. -/
  refused : ∀ op e, (s.perform (run {} ops).device op).answer = .error (.call e) →
    s.perform (run {} ops).device op = s.refuse e ∧
      (run {} ops).Same ((run {} ops).perform (.call i op))
  /-- Only a pass can fail otherwise. -/
  failed : ∀ op e, (s.perform (run {} ops).device op).answer = .error e →
    (∃ e', e = .call e') ∨ op.appliesPass = true ∧ ∃ e', e = .evaluation e'
  beginPass_failed : ∀ device p e,
    (s.perform (run {} ops).device (.beginPass device p)).answer = .error (.evaluation e) →
    (s.perform (run {} ops).device (.beginPass device p)).state.active = none
  commit_failed : ∀ device e,
    (s.perform (run {} ops).device (.commit device)).answer = .error (.evaluation e) →
    ∃ p, s.active = some p ∧
      (s.perform (run {} ops).device (.commit device)).state.active = some p
  /-- No look-up fails while a pass is applied, however deep samplers lead on to samplers. -/
  lookups : ∀ t p pass full, s.linked.pass? t p = some pass →
    s.applyPassStrict s.linked.samplerDepth t p pass full = s.applyPass t p pass full ∧
    ∀ depth e, (s.applyPassStrict depth t p pass full).answer ≠ .error (.call e)
  /-- Nor does one while a pass is recorded, to find out which states are saved. -/
  records : ∀ t p pass, s.linked.pass? t p = some pass →
    s.linked.recordPassStrict s.linked.samplerDepth pass = .sure (s.linked.recordPass pass)

/-- If effects are made from images that were read, calls to them come in order or are refused, and
leave nothing half done. -/
theorem ordered_run (hops : ∀ op ∈ ops, op.FromStored) (hkeeps : Keeps (KeepsTechnique i) {} ops)
    (hs : (run {} ops).state? i = some s) : Ordered ops i s := by
  obtain ⟨use, hstart⟩ := laidOut_empty
  obtain ⟨use', tiles, hlayout, htiled⟩ := tiled_run hops hstart (@tiled_empty fun _ => [])
  have heffect := (state?_eq_some.1 hs).1
  -- Where an image comes from matters only here: arrays that were read are as long as declared.
  have hcomplete := (hlayout.effects i s.effect heffect).complete (htiled.effects i _ heffect).image
  have hlt := active_lt_passCount hkeeps hs
  constructor
  case begun =>
    exact since_iff (motive := fun phase => phase.isBegun = true) (fun h => by cases h)
      (fun _ _ _ hstep => hstep.isBegun_iff) hs
  case saved =>
    exact since_iff (motive := fun phase => phase.hasSaved = true) (fun h => by cases h)
      (fun _ _ _ hstep => hstep.hasSaved_iff) hs
  case active =>
    intro p
    rw [s.active_eq]
    exact since_iff (motive := fun phase => phase.active? = some p) (fun h => by cases h)
      (fun _ _ _ hstep => hstep.active?_iff p) hs
  case within =>
    rw [s.active_eq]
    cases s.effect.phase with
    | idle => exact fun h => absurd h (by decide)
    | begun saved active => exact fun _ => rfl
  case beginPass => exact EffectState.turnsAway_beginPass_iff
  case commit => exact EffectState.turnsAway_commit_iff hlt
  case endPass => exact EffectState.turnsAway_endPass_iff
  case finish => exact EffectState.turnsAway_finish_iff
  case inUse =>
    rintro op device (rfl | ⟨p, rfl⟩) heq
    · rcases EffectState.commit_eq_refuse heq with ⟨-, hne⟩ | ⟨-, hinUse⟩
      · exact absurd rfl hne
      · exact hinUse
    · rcases EffectState.beginPass_eq_refuse heq with ⟨-, hne⟩ | ⟨-, hinUse⟩
      · exact absurd rfl hne
      · exact hinUse
  case refused =>
    intro op e h
    have heq : s.perform (run {} ops).device op = s.refuse e := by
      obtain ⟨e', he, heq⟩ | ⟨-, e', he⟩ := EffectState.perform_of_error h
      · cases he
        exact heq
      · cases he
    exact ⟨heq, same_of_refused hs heq⟩
  case failed =>
    exact fun op e h => (EffectState.perform_of_error h).imp_left fun ⟨e', he, _⟩ => ⟨e', he⟩
  case beginPass_failed => exact fun device p e h => EffectState.active_of_beginPass_fails h
  case commit_failed => exact fun device e h => EffectState.active_of_commit_fails h
  case lookups =>
    exact fun t p pass full hpass => ⟨EffectState.applyPassStrict_eq hcomplete hpass full,
      EffectState.answer_applyPassStrict_ne_call hcomplete hpass full⟩
  case records => exact fun t p pass hpass => hcomplete.recordPassStrict_eq hpass

/-- An effect with one pass, which sets one state. -/
def candle : WrittenEffect where
  parameters := []
  techniques := [⟨some "lit", [], [⟨none, [], [.dword 0 0 1]⟩]⟩]
  objectCount := 0
  objectData := []
  resources := []

/-- The pass of a candle is begun twice and ended, and begun again after the effect was. -/
def relight (im : Image) : List HostOperation :=
  [.create im [] none, .call 0 (.begin 0 {}), .call 0 (.beginPass 0 0), .call 0 (.beginPass 0 0),
    .call 0 .endPass, .call 0 (.commit 0), .call 0 (.begin 0 {}), .call 0 (.beginPass 0 0),
    .call 0 (.commit 0)]

/-- The pass of the candle is begun in the end. -/
theorem ordered_run_relight :
    ∃ im, Image.decode (Image.encode candle).toArray = .ok im ∧
      ∃ s, (run {} (relight im)).state? 0 = some s ∧ s.active = some 0 ∧
        Ordered (relight im) 0 s := by
  obtain ⟨im, hdecode, s, hs, hactive⟩ : ∃ im,
      (Image.decode (Image.encode candle).toArray).toOption = some im ∧
        ∃ s, (run {} (relight im)).state? 0 = some s ∧ s.active = some 0 := by
    decide +kernel
  have hok := Image.eq_ok_of_toOption_eq_some hdecode
  refine ⟨im, hok, s, hs, hactive, ordered_run (fun op hop => ?_) ?_ hs⟩
  · simp only [relight, List.mem_cons, List.not_mem_nil, or_false] at hop
    rcases hop with rfl | rfl | rfl | rfl | rfl | rfl | rfl | rfl | rfl
    all_goals first | exact True.intro | exact ⟨_, hok⟩
  · refine ⟨?_, ?_, ?_, ?_, ?_, ?_, ?_, ?_, ?_, trivial⟩ <;>
    · intro t s h
      cases h

end Host

end ShaderEffect
