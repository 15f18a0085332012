import Mathlib.Data.List.TakeWhile
import ShaderEffect.Proofs.Host.Stores

/-!
# Recorded values given back

A block that is being recorded holds parameters in the order in which they were first noted, and of
each what it held when it was last noted (`LinkedEffect.Tracks`). To apply the block is to write
these values in this order. So where several parameters address a place, the value comes from the
one that was first noted last, which is the one that was last noted unless a parameter encloses
another one (`Encloses`).
-/

namespace ShaderEffect

/-! ### The order of notes -/

/-- What was noted before a parameter was for the first time. -/
def notedBefore (history : List Handle) (h : Handle) : List Handle :=
  history.takeWhile (· ≠ h)

/-- What was noted after a parameter was for the last time, the latest first. -/
def notedAfter (history : List Handle) (h : Handle) : List Handle :=
  history.reverse.takeWhile (· ≠ h)

/-- One parameter was noted both before another one was for the first time and after this one was
for the last time. -/
def Encloses (history : List Handle) (g h : Handle) : Prop :=
  h ∈ history ∧ g ∈ notedBefore history h ∧ g ∈ notedAfter history h

instance (history : List Handle) (g h : Handle) : Decidable (Encloses history g h) :=
  inferInstanceAs (Decidable (_ ∧ _ ∧ _))

section Order

variable {history before after : List Handle} {g h : Handle}

lemma ne_of_mem_notedBefore (hg : g ∈ notedBefore history h) : g ≠ h := by
  simpa using List.mem_takeWhile_imp hg

lemma notedBefore_subset_append (history later : List Handle) (h : Handle) :
    notedBefore history h ⊆ notedBefore (history ++ later) h := by
  rw [notedBefore, notedBefore, List.takeWhile_append]
  split
  · exact List.subset_append_of_subset_left _ (List.takeWhile_prefix _).subset
  · exact List.Subset.refl _

lemma notedBefore_append_singleton (hh : h ∉ history) :
    notedBefore (history ++ [h]) h = history := by
  rw [notedBefore, List.takeWhile_append_of_pos fun g hg => by
    simpa using ne_of_mem_of_not_mem hg hh]
  simp

lemma mem_notedAfter (hg : h ≠ g) (hafter : h ∉ after) :
    g ∈ notedAfter (before ++ g :: after) h := by
  rw [notedAfter, List.reverse_append, List.reverse_cons, List.takeWhile_append_of_pos]
  · simp
  · intro x hx
    rcases List.mem_append.1 hx with hx | hx
    · simpa using ne_of_mem_of_not_mem (List.mem_reverse.1 hx) hafter
    · simpa [List.mem_singleton.1 hx] using hg.symm

lemma notedAfter_subset (before after : List Handle) (g : Handle) :
    notedAfter (before ++ g :: after) g ⊆ after := by
  rw [notedAfter, List.reverse_append, List.reverse_cons, List.append_assoc, List.takeWhile_append]
  split
  · simp
  · exact fun h hh => List.mem_reverse.1 ((List.takeWhile_prefix _).subset hh)

end Order

/-! ### Entries -/

namespace EffectState

variable {s : EffectState} {h : Handle} {entry other : BlockEntry} {block : ParameterBlock}

lemma record_eq (hrecording : s.effect.recording = some block) :
    s.record h = { s with effect := { s.effect with
      recording := some (recordEntry ⟨h, s.words h, s.objects h⟩ block) } } := by
  rw [record, hrecording]

lemma map_h_recordEntry (entry : BlockEntry) (block : ParameterBlock) :
    (recordEntry entry block).map (·.h) =
      if entry.h ∈ block.map (·.h) then block.map (·.h) else block.map (·.h) ++ [entry.h] := by
  induction block with
  | nil => rfl
  | cons e rest ih =>
    rw [recordEntry]
    by_cases he : e.h = entry.h
    · simp [he]
    · rw [if_neg he, List.map_cons, ih, List.map_cons]
      simp only [List.mem_cons, Ne.symm he, false_or]
      split <;> rfl

lemma mem_recordEntry_self (entry : BlockEntry) (block : ParameterBlock) :
    entry ∈ recordEntry entry block := by
  induction block with
  | nil => exact List.mem_singleton_self _
  | cons e rest ih =>
    rw [recordEntry]
    split
    · exact List.mem_cons_self
    · exact List.mem_cons_of_mem _ ih

lemma mem_recordEntry_of_ne (hmem : other ∈ block) (hne : other.h ≠ entry.h) :
    other ∈ recordEntry entry block := by
  induction block with
  | nil => cases hmem
  | cons e rest ih =>
    rw [recordEntry]
    rcases List.mem_cons.1 hmem with rfl | hmem
    · rw [if_neg hne]
      exact List.mem_cons_self
    · split
      · exact List.mem_cons_of_mem _ hmem
      · exact List.mem_cons_of_mem _ (ih hmem)

end EffectState

/-! ### The block being recorded -/

namespace LinkedEffect

variable (e : LinkedEffect)

/-- What an entry holds for a place that its parameter addresses. -/
def entryAt (entry : BlockEntry) (k : Storage) (n : Nat) : Option k.Value :=
  (e.tree.node? entry.h).bind fun p => (entry.values k)[n - (k.slice p).start]?

/-- A block being recorded holds the parameters that were noted in the order of their first notes,
and what a place holds is in the entry of the parameter that was last noted of those that address
it. -/
structure Tracks (history : List Handle) (m : Memory) (block : ParameterBlock) : Prop where
  mem : ∀ h, h ∈ block.map (·.h) ↔ h ∈ history
  order : (block.map (·.h)).Pairwise fun g h => g ∈ notedBefore history h
  current : ∀ before h after, history = before ++ h :: after → ∀ id k n, ¬e.Computed id →
    e.Addresses [h] id k n → ¬e.Addresses after id k n →
      ∃ entry ∈ block, entry.h = h ∧ e.entryAt entry k n = m.valueAt id k n

variable {e} {history hs hs' : List Handle} {m m' : Memory} {block : ParameterBlock} {h : Handle}
  {id n : Nat} {k : Storage}

lemma addresses_append :
    e.Addresses (hs ++ hs') id k n ↔ e.Addresses hs id k n ∨ e.Addresses hs' id k n := by
  simp only [Addresses, List.mem_append, or_and_right, exists_or]

lemma Addresses.mono (hadd : e.Addresses hs id k n) (hsub : hs ⊆ hs') : e.Addresses hs' id k n :=
  hadd.imp fun _ hh => hh.imp_left (@hsub _)

/-- Of the parameters that address a place there is one that was last noted. -/
lemma Addresses.exists_last (hadd : e.Addresses history id k n) : ∃ before h after,
    history = before ++ h :: after ∧ e.Addresses [h] id k n ∧ ¬e.Addresses after id k n := by
  induction history with
  | nil =>
    obtain ⟨h, hh, -⟩ := hadd
    cases hh
  | cons g rest ih =>
    by_cases hrest : e.Addresses rest id k n
    · obtain ⟨before, h, after, rfl, hlast⟩ := ih hrest
      exact ⟨g :: before, h, after, rfl, hlast⟩
    · exact ⟨[], g, rest, rfl,
        (addresses_append.1 (show e.Addresses ([g] ++ rest) id k n from hadd)).resolve_right hrest,
        hrest⟩

/-- An entry just noted holds what the places of its parameter hold. -/
lemma entryAt_values (hadd : e.Addresses [h] id k n) :
    e.entryAt ⟨h, e.words m h, e.objects m h⟩ k n = m.valueAt id k n := by
  obtain ⟨p, hp, hid, hn⟩ := addresses_singleton.1 hadd
  have hstop := hn.2
  rw [Slice.stop] at hstop
  have hvalues : BlockEntry.values ⟨h, e.words m h, e.objects m h⟩ k = e.values m k h := by
    cases k <;> rfl
  rw [entryAt, hp, Option.bind_some, hvalues, e.values_eq_read hp hid, Slice.getElem?_read,
    if_pos (Nat.sub_lt_left_of_lt_add hn.1 hstop), Nat.add_sub_cancel' hn.1, Memory.valueAt]

namespace Tracks

lemma nil (e : LinkedEffect) (m : Memory) : e.Tracks [] m [] where
  mem _ := Iff.rfl
  order := .nil
  current before h after hnil := by simp at hnil

/-- To note a parameter whose places may have changed, and no others, keeps track. -/
lemma note (htracks : e.Tracks history m block) (hwithin : e.ChangesWithin [h] m m') :
    e.Tracks (history ++ [h]) m'
      (EffectState.recordEntry ⟨h, e.words m' h, e.objects m' h⟩ block) where
  mem g := by
    rw [EffectState.map_h_recordEntry]
    have := htracks.mem
    split <;> simp_all
  order := by
    have hold := htracks.order.imp fun {g x} hg => notedBefore_subset_append history [h] x hg
    rw [EffectState.map_h_recordEntry]
    split
    · exact hold
    · rename_i hnew
      rw [htracks.mem] at hnew
      refine List.pairwise_append.2 ⟨hold, List.pairwise_singleton _ _, fun g hg x hx => ?_⟩
      obtain rfl := List.mem_singleton.1 hx
      rw [notedBefore_append_singleton hnew]
      exact (htracks.mem g).1 hg
  current before g after hhistory id k n hid hadd hafter := by
    rcases after.eq_nil_or_concat' with rfl | ⟨after, x, rfl⟩
    · obtain ⟨-, hlast⟩ := List.append_inj' hhistory rfl
      obtain rfl := List.singleton_inj.1 hlast
      exact ⟨_, EffectState.mem_recordEntry_self _ _, rfl, entryAt_values hadd⟩
    · rw [← List.cons_append, ← List.append_assoc] at hhistory
      obtain ⟨hrest, hlast⟩ := List.append_inj' hhistory rfl
      obtain rfl := List.singleton_inj.1 hlast
      rw [addresses_append, not_or] at hafter
      obtain ⟨entry, hentry, rfl, hvalue⟩ :=
        htracks.current before g after hrest id k n hid hadd hafter.1
      refine ⟨entry, EffectState.mem_recordEntry_of_ne hentry ?_, rfl, ?_⟩
      · rintro rfl
        exact hafter.2 hadd
      · exact hvalue.trans ((hwithin id k n).resolve_right hafter.2).symm

/-- To change no place that a noted parameter addresses keeps track. -/
lemma congr (htracks : e.Tracks history m block)
    (hsame : ∀ id k n, ¬e.Computed id → e.Addresses history id k n →
      m'.valueAt id k n = m.valueAt id k n) : e.Tracks history m' block where
  mem := htracks.mem
  order := htracks.order
  current before h after hhistory id k n hid hadd hafter := by
    obtain ⟨entry, hentry, heq, hvalue⟩ :=
      htracks.current before h after hhistory id k n hid hadd hafter
    have hmem : [h] ⊆ history := by simp [hhistory]
    exact ⟨entry, hentry, heq, hvalue.trans (hsame id k n hid (hadd.mono hmem)).symm⟩

end Tracks

end LinkedEffect

/-- A trail of writes and notes keeps track. -/
lemma EffectState.Trail.tracks {s s' : EffectState} {written noted history : List Handle}
    {block : ParameterBlock} (htrail : Trail s written noted s')
    (hrecording : s.effect.recording = some block)
    (htracks : s.linked.Tracks history s.memory block) :
    ∃ block', s'.effect.recording = some block' ∧
      s.linked.Tracks (history ++ noted) s'.memory block' := by
  induction htrail generalizing history block with
  | nil s => exact ⟨block, hrecording, by rwa [List.append_nil]⟩
  | @write s s' h memory _ noted _ hwithin _ ih =>
    rw [record_eq (s := { s with memory }) hrecording] at ih
    rw [List.append_cons]
    exact ih rfl (htracks.note hwithin)
  | @note s s' h _ noted _ ih =>
    rw [record_eq hrecording] at ih
    rw [List.append_cons]
    exact ih rfl (htracks.note fun _ _ _ => .inl rfl)

/-! ### Applying a block -/

namespace LinkedEffect

variable {e : LinkedEffect} {entry : BlockEntry} {w : Write} {id n : Nat} {k : Storage}

lemma addresses_of_stored?_eq_some {v : k.Value} (h : e.stored? w id k n = some v) :
    e.Addresses [w.h] id k n := by
  obtain ⟨p, hp, -⟩ := Option.bind_eq_some_iff.1 h
  obtain ⟨hid, hn, -⟩ := (stored?_eq_some hp).1 h
  exact addresses_singleton.2 ⟨p, hp, hid, hn⟩

lemma stored?_write (hadd : e.Addresses [entry.h] id k n) :
    e.stored? entry.write id k n = e.entryAt entry k n := by
  obtain ⟨p, hp, hid, hn⟩ := addresses_singleton.1 hadd
  simp [stored?, entryAt, BlockEntry.write, hp, hid, hn]

end LinkedEffect

/-- Of a block that is applied, the last entry whose parameter addresses a place gives the value. -/
lemma EffectState.valueAt_foldl_applyEntry {s : EffectState} {entry : BlockEntry}
    {before after : ParameterBlock} {id n : Nat} {k : Storage}
    (hc : s.linked.counter < s.memory.counters.size)
    (hadd : s.linked.Addresses [entry.h] id k n)
    (hafter : ¬s.linked.Addresses (after.map (·.h)) id k n)
    (hvalue : n < k.size (s.memory.block id).toContents ↔
      (s.linked.entryAt entry k n).isSome = true) :
    ((before ++ entry :: after).foldl applyEntry s).memory.valueAt id k n =
      s.linked.entryAt entry k n := by
  have hnone : ∀ w ∈ after.map BlockEntry.write, s.linked.stored? w id k n = none := by
    intro w hw
    obtain ⟨other, hother, rfl⟩ := List.mem_map.1 hw
    refine Option.eq_none_iff_forall_ne_some.2 fun v hv => hafter ?_
    exact (LinkedEffect.addresses_of_stored?_eq_some hv).mono
      (List.cons_subset.2 ⟨List.mem_map_of_mem hother, List.nil_subset _⟩)
  rw [stores_foldl_applyEntry _ hc id k n, List.map_append, List.map_cons]
  rw [← Memory.isSome_valueAt] at hvalue
  cases hheld : s.memory.valueAt id k n with
  | none =>
    cases hentry : s.linked.entryAt entry k n with
    | none => rfl
    | some v => simp [hheld, hentry] at hvalue
  | some v =>
    obtain ⟨v', hentry⟩ := Option.isSome_iff_exists.1 (hvalue.1 (by rw [hheld]; rfl))
    rw [Option.map_some, LinkedEffect.afterWrites_append, LinkedEffect.afterWrites_cons,
      LinkedEffect.stored?_write hadd, hentry, Option.getD_some]
    exact LinkedEffect.map_afterWrites_of_forall hnone (some v')

namespace LinkedEffect

variable (e : LinkedEffect)

/-- Where a parameter encloses another one that addresses the same place, one that addresses the
place was noted after it. -/
def InOrder (history : List Handle) (id : Nat) (k : Storage) (n : Nat) : Prop :=
  ∀ g ∈ history, ∀ h ∈ history, e.Addresses [g] id k n → e.Addresses [h] id k n →
    Encloses history g h → e.Addresses (notedAfter history g) id k n

/-- From one memory to another what was noted of parameters was given back. -/
structure Replays (history : List Handle) (recorded before after : Memory) : Prop where
  /-- Where parameters were noted in order, they hold what they held when the recording ended. -/
  given : ∀ h ∈ history, e.IsParameter h → ∀ id k n, e.Addresses [h] id k n →
    e.InOrder history id k n → after.valueAt id k n = recorded.valueAt id k n
  /-- Places that no parameter addresses which was noted are as they were. -/
  left : ∀ id k n, ¬e.Addresses history id k n → after.valueAt id k n = before.valueAt id k n

variable {e} {history : List Handle} {m : Memory} {block : ParameterBlock} {id n : Nat}
  {k : Storage}

/-- Of the entries whose parameters address a place, that of the parameter which was last noted is
the last one, if the parameters were noted in order. -/
lemma Tracks.not_addresses_after {before after : List Handle} {pre post : ParameterBlock}
    {entry : BlockEntry} (htracks : e.Tracks history m (pre ++ entry :: post))
    (hhistory : history = before ++ entry.h :: after) (hadd : e.Addresses [entry.h] id k n)
    (hafter : ¬e.Addresses after id k n) (horder : e.InOrder history id k n) :
    ¬e.Addresses (post.map (·.h)) id k n := by
  rintro ⟨h, hh, hplace⟩
  have hh' : e.Addresses [h] id k n := ⟨h, List.mem_singleton_self h, hplace⟩
  have hmem : h ∈ history := (htracks.mem h).1 (by simp_all)
  have hbefore : entry.h ∈ notedBefore history h := by
    have hpairs := htracks.order
    rw [List.map_append, List.map_cons, List.pairwise_append, List.pairwise_cons] at hpairs
    exact hpairs.2.1.1 h hh
  have henclosed : entry.h ∈ notedAfter history h := by
    rw [hhistory]
    refine mem_notedAfter (ne_of_mem_notedBefore hbefore).symm fun hin => hafter ?_
    exact hh'.mono (by simpa using hin)
  -- So this one encloses the other, and yet none that addresses the place was noted after it.
  refine hafter (Addresses.mono (horder entry.h (by simp [hhistory]) h hmem hadd hh'
    ⟨hmem, hbefore, henclosed⟩) ?_)
  rw [hhistory]
  exact notedAfter_subset before after entry.h

/-- To apply a block that was recorded gives back what it noted. -/
theorem Tracks.replays {s : EffectState} (he : s.linked.Proper)
    (hc : s.linked.counter < s.memory.counters.size)
    (htracks : s.linked.Tracks history m block)
    (hsize : ∀ id, s.linked.Owns id → id < s.memory.blocks.size ∧ ∀ k : Storage,
      k.size (s.memory.block id).toContents = k.size (m.block id).toContents) :
    s.linked.Replays history m s.memory (block.foldl EffectState.applyEntry s).memory where
  given h hh hparameter id k n hadd horder := by
    obtain ⟨-, -, hid, -⟩ := addresses_singleton.1 hadd
    have hstable := he.stable_of_isParameter hparameter id hid
    obtain ⟨hlt, hsize⟩ := hsize id (owns_of_blockOf? hid)
    have hmem : [h] ⊆ history := by simpa using hh
    obtain ⟨before, g, after, hhistory, hg, hafter⟩ := (hadd.mono hmem).exists_last
    obtain ⟨entry, hentry, rfl, hvalue⟩ :=
      htracks.current before g after hhistory id k n hstable hg hafter
    obtain ⟨pre, post, rfl⟩ := List.append_of_mem hentry
    rw [← hvalue]
    refine EffectState.valueAt_foldl_applyEntry hc hg
      (htracks.not_addresses_after hhistory hg hafter horder) ?_
    rw [hvalue, hsize, Memory.isSome_valueAt]
  left id k n hnot := by
    refine ((EffectState.trail_foldl_applyEntry block hc).setting.within id k n).resolve_right
      fun hadd => hnot (hadd.mono fun h hh => ?_)
    exact (htracks.mem h).1 (BlockEntry.targets_subset block hh)

end LinkedEffect

end ShaderEffect
