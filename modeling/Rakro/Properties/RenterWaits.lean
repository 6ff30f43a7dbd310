import Rakro.Properties.ConcurrentRent

/-!
# What a renter waits for

A thread whose scan of the full pool has found nothing turns to the last block and stays with it. The
notifications of that block are not lost: as long as a thread sleeps there, somebody else is on the
way to every buffer of it that is free. A buffer that becomes free in another block is what such a
thread does not see.
-/

namespace Rakro

open Infra

namespace Phase

/-- The thread is in `rent` of the block `id`. -/
def WaitsFor (id : Nat) : Phase → Prop
  | trying block | checking block | asleep block => block = id
  | outside | scanned | making | rescanning => False

/-- The thread is about to take a buffer of the block `id`. -/
def TakesFrom (id : Nat) : Phase → Prop
  | trying block | checking block => block = id
  | outside | scanned | making | rescanning | asleep _ => False

instance (id : Nat) : DecidablePred (TakesFrom id)
  | trying _ | checking _ => Nat.decEq _ _
  | outside | scanned | making | rescanning | asleep _ => instDecidableFalse

/-- When the pool is `full`, a thread whose scan has found nothing turns to the last block. -/
def Commits (full : Prop) : Phase → Prop
  | scanned => full
  | trying _ | checking _ | asleep _ => True
  | outside | making | rescanning => False

instance (full : Prop) [Decidable full] : DecidablePred (Commits full)
  | scanned => inferInstanceAs (Decidable full)
  | trying _ | checking _ | asleep _ => instDecidableTrue
  | outside | making | rescanning => instDecidableFalse

variable {id block : Nat}

@[simp] theorem waitsFor_outside : ¬ outside.WaitsFor id := not_false

@[simp] theorem waitsFor_scanned : ¬ scanned.WaitsFor id := not_false

@[simp] theorem waitsFor_making : ¬ making.WaitsFor id := not_false

@[simp] theorem waitsFor_rescanning : ¬ rescanning.WaitsFor id := not_false

@[simp] theorem waitsFor_trying : (trying block).WaitsFor id ↔ block = id := Iff.rfl

@[simp] theorem waitsFor_checking : (checking block).WaitsFor id ↔ block = id := Iff.rfl

@[simp] theorem waitsFor_asleep : (asleep block).WaitsFor id ↔ block = id := Iff.rfl

@[simp] theorem takesFrom_outside : ¬ outside.TakesFrom id := not_false

@[simp] theorem takesFrom_scanned : ¬ scanned.TakesFrom id := not_false

@[simp] theorem takesFrom_making : ¬ making.TakesFrom id := not_false

@[simp] theorem takesFrom_rescanning : ¬ rescanning.TakesFrom id := not_false

@[simp] theorem takesFrom_trying : (trying block).TakesFrom id ↔ block = id := Iff.rfl

@[simp] theorem takesFrom_checking : (checking block).TakesFrom id ↔ block = id := Iff.rfl

@[simp] theorem takesFrom_asleep : ¬ (asleep block).TakesFrom id := not_false

end Phase

namespace Threads

variable {T : Type} [DecidableEq T] [Fintype T] {bufferCount blockMaxCount : Nat} {s : Threads T}

/-! ## The notifications -/

/-- Who waits does so at the last block of a full pool, and nobody sleeps there while a free buffer
of the block has no taker. -/
structure Orderly (s : Threads T) : Prop where
  lastBlock : ∀ u id, (s.phase u).WaitsFor id →
    id = 0 ∧ s.company.blocks.length = s.company.blockMaxCount
  notified : ∀ u id, s.phase u = .asleep id →
    s.company.freeOf id ≤ processesAt (Phase.TakesFrom id) s.phase

omit [Fintype T] in
/-- A thread that waits now has waited before, or it is the one that has moved. -/
theorem waitsFor_of_update {t u : T} {phase : Phase} {id : Nat}
    (hu : (Function.update s.phase t phase u).WaitsFor id) :
    phase.WaitsFor id ∨ (s.phase u).WaitsFor id :=
  of_update (P := Phase.WaitsFor id) hu

/-- A thread that moves on may stop to be a taker, or fall asleep, where nothing is free. -/
theorem Orderly.moveTo (h : s.Orderly) (t : T) {phase : Phase}
    (hlast : ∀ id, phase.WaitsFor id →
      id = 0 ∧ s.company.blocks.length = s.company.blockMaxCount)
    (hleaves : ∀ id, (s.phase t).TakesFrom id → ¬ phase.TakesFrom id → s.company.freeOf id = 0)
    (hsleeps : ∀ id, phase = .asleep id → s.company.freeOf id = 0) :
    (s.moveTo t phase).Orderly where
  lastBlock := fun u id hu => (waitsFor_of_update hu).elim (hlast id) (h.lastBlock u id)
  notified := by
    intro u id hu
    show s.company.freeOf id ≤ processesAt (Phase.TakesFrom id) (Function.update s.phase t phase)
    by_cases hfree : s.company.freeOf id = 0
    · rw [hfree]
      exact Nat.zero_le _
    · have hne : phase ≠ .asleep id := fun hphase => hfree (hsleeps id hphase)
      have hasleep := h.notified u id (phase_of_update hne hu).2
      have hcount := processesAt_update (Phase.TakesFrom id) s.phase t phase
      have hstays : (s.phase t).TakesFrom id → phase.TakesFrom id := by
        intro htakes
        by_contra hnot
        exact hfree (hleaves id htakes hnot)
      split at hcount
      · rename_i htakes
        rw [if_pos (hstays htakes)] at hcount
        omega
      · omega

/-- A taker that takes leaves with its buffer. -/
theorem Orderly.take (h : s.Orderly) (hc : s.company.Conserves s.rented) {t : T}
    {buffer : BufferId} {blocks : List BufferBlock}
    (htakes : BufferCompany.Takes s.company.blocks buffer blocks)
    (htaker : ∀ id, (s.phase t).TakesFrom id → id = buffer.block) :
    (s.take t buffer blocks).Orderly where
  lastBlock := by
    intro u id hu
    have hlast := h.lastBlock u id ((waitsFor_of_update hu).resolve_left Phase.waitsFor_outside)
    obtain ⟨pre, block, block', post, hblocks, -, rfl⟩ := htakes
    rw [hblocks] at hlast
    simpa [Threads.take] using hlast
  notified := by
    intro u id hu
    have hasleep := h.notified u id (phase_of_update (by simp) hu).2
    have hcount : processesAt (Phase.TakesFrom id) (s.take t buffer blocks).phase + _ = _ + _ :=
      processesAt_update (Phase.TakesFrom id) s.phase t .outside
    have hfree : _ = (s.take t buffer blocks).company.freeOf id + _ := hc.freeOf_take htakes id
    rw [if_neg Phase.takesFrom_outside] at hcount
    split at hcount
    · rename_i htaking
      rw [if_pos (htaker id htaking).symm] at hfree
      omega
    · omega

/-- A buffer that comes back wakes a sleeper if there is one. -/
theorem Orderly.giveBack (h : s.Orderly) (hc : s.company.Conserves s.rented) {buffer : BufferId}
    {woken : Option T} (hrented : buffer ∈ s.rented)
    (hwoken : ∀ u, woken = some u → s.phase u = .asleep buffer.block)
    (hnobody : woken = none → ∀ u, s.phase u ≠ .asleep buffer.block) :
    ({ s with
        company := s.company.addFree buffer.block buffer
        rented := s.rented.erase buffer }.wake buffer.block woken).Orderly := by
  have hback := hc.of_perm (List.perm_cons_erase hrented)
  have hlength := s.company.length_addFree buffer.block buffer
  cases woken with
  | none =>
    refine ⟨fun u id hu => ?_, fun u id hu => ?_⟩
    · obtain ⟨hid, hfull⟩ := h.lastBlock u id hu
      exact ⟨hid, hlength.trans hfull⟩
    · have hne : buffer.block ≠ id := by
        rintro rfl
        exact hnobody rfl u hu
      have hfree := hback.freeOf_addFree id
      rw [if_neg hne] at hfree
      exact hfree.trans_le (h.notified u id hu)
  | some v =>
    have hv := hwoken v rfl
    refine ⟨fun u id hu => ?_, fun u id hu => ?_⟩
    · have hlast : id = 0 ∧ s.company.blocks.length = s.company.blockMaxCount := by
        rcases waitsFor_of_update hu with hchecking | hwaits
        · exact h.lastBlock v id (by rw [hv]; exact hchecking)
        · exact h.lastBlock u id hwaits
      exact ⟨hlast.1, hlength.trans hlast.2⟩
    · have hasleep := h.notified u id (phase_of_update (by simp) hu).2
      have hcount := processesAt_update (Phase.TakesFrom id) s.phase v (.checking buffer.block)
      rw [hv, if_neg Phase.takesFrom_asleep] at hcount
      have hfree := hback.freeOf_addFree id
      have hsame : (if (Phase.checking buffer.block).TakesFrom id then 1 else 0)
          = if buffer.block = id then 1 else 0 := rfl
      rw [hsame] at hcount
      show (s.company.addFree buffer.block buffer).freeOf id
        ≤ processesAt (Phase.TakesFrom id) (Function.update s.phase v (.checking buffer.block))
      omega

/-- A step keeps the threads orderly. -/
theorem Orderly.next (h : s.Holds bufferCount blockMaxCount) (ho : s.Orderly) {step : ThreadStep T}
    (henabled : s.Enabled step) : (s.next step).Orderly := by
  have hc := h.conserves
  have houtcome := h.outcome henabled
  generalize s.next step = s' at houtcome ⊢
  cases houtcome with
  | scanTakes hphase htakes | rescanTakes hphase htakes | tryTakes hphase htakes =>
    exact ho.take hc htakes (by simp [hphase, eq_comm])
  | scanFails hphase hnone => exact ho.moveTo _ (by simp) (by simp [hphase]) (by simp)
  | testFull hphase hfull =>
    exact ho.moveTo _ (fun id hid => ⟨hid.symm, hfull⟩) (by simp [hphase]) (by simp)
  | testRoom hphase hlt => exact ho.moveTo _ (by simp) (by simp [hphase]) (by simp)
  | tryFails hphase hnone =>
    exact ho.moveTo _ (fun id hid => ho.lastBlock _ id (by rw [hphase]; exact hid))
      (by simp [hphase]) (by simp)
  | checkFinds hphase hfree =>
    exact ho.moveTo _ (fun id hid => ho.lastBlock _ id (by rw [hphase]; exact hid))
      (by simp [hphase]) (by simp)
  | checkFails hphase hnone =>
    exact ho.moveTo _ (fun id hid => ho.lastBlock _ id (by rw [hphase]; exact hid))
      (by simp [hphase, hnone]) (by simp [hnone])
  | initMakes hphase hflag hlt =>
    -- there is room, so nobody waits
    have hnobody : ∀ u id, ¬ (s.phase u).WaitsFor id := fun u id hu =>
      Nat.ne_of_lt hlt (ho.lastBlock u id hu).2
    refine ⟨fun u id hu => ?_, fun u id hu => ?_⟩
    · exact absurd ((waitsFor_of_update hu).resolve_left Phase.waitsFor_rescanning) (hnobody u id)
    · have hasleep := (phase_of_update (by simp) hu).2
      exact absurd (show (s.phase u).WaitsFor id by rw [hasleep]; rfl) (hnobody u id)
  | @initLeaves t _ hphase _ =>
    have hmoved : (s.moveTo t .rescanning).Orderly :=
      ho.moveTo t (by simp) (by simp [hphase]) (by simp)
    exact ⟨hmoved.lastBlock, hmoved.notified⟩
  | rescanFails hphase hnone => exact ⟨ho.lastBlock, ho.notified⟩
  | giveBack _ hrented hwoken hnobody => exact ho.giveBack hc hrented hwoken hnobody

/-! ## What a thread on its way to the last block misses -/

/-- The thread will rent from the last block, whatever becomes free elsewhere. -/
def Committed (s : Threads T) (u : T) : Prop :=
  (s.phase u).Commits (s.company.blocks.length = s.company.blockMaxCount)

instance (s : Threads T) (u : T) : Decidable (s.Committed u) :=
  inferInstanceAs (Decidable ((s.phase u).Commits _))

/--
No buffer goes back to a block other than the last while a thread is committed to the last one, and
the pool is not filled under a thread whose scan has found nothing.
-/
def Unmissed (s : Threads T) : ThreadStep T → Prop
  | .giveBack _ buffer _ =>
    s.company.blocks.getLast?.map (·.id) ≠ some buffer.block → ∀ u, ¬ s.Committed u
  | .initBlock t => s.Fills (.initBlock t) → ∀ u, s.phase u ≠ .scanned
  | _ => True

instance (s : Threads T) : (step : ThreadStep T) → Decidable (s.Unmissed step)
  | .giveBack _ buffer _ => inferInstanceAs (Decidable (_ ≠ some buffer.block → _))
  | .initBlock t => inferInstanceAs (Decidable (s.Fills (.initBlock t) → _))
  | .scan _ | .test _ | .rescan _ | .tryRent _ _ | .check _ _ => instDecidableTrue

/-- While a thread is committed to the last block, the others have no free buffer. -/
def Spent (s : Threads T) : Prop :=
  ∀ u, s.Committed u → ∀ id, id ≠ 0 → s.company.freeOf id = 0

omit [Fintype T] in
/-- Who commits behind a move is the one that moved, or committed before. -/
theorem commits_of_update {t u : T} {phase : Phase} {full : Prop}
    (hu : (Function.update s.phase t phase u).Commits full) :
    phase.Commits full ∨ (s.phase u).Commits full :=
  of_update (P := Phase.Commits full) hu

omit [Fintype T] in
/-- A thread that gets committed only when nothing is free keeps the other blocks spent. -/
theorem Spent.moveTo (h : s.Spent) (t : T) {phase : Phase}
    (hcommits : phase.Commits (s.company.blocks.length = s.company.blockMaxCount) →
      s.Committed t ∨ s.company.freeBuffers = []) : (s.moveTo t phase).Spent := by
  intro u hu id hid
  rcases commits_of_update hu with hphase | hbefore
  · rcases hcommits hphase with hcommitted | hnone
    · exact h t hcommitted id hid
    · show s.company.freeOf id = 0
      rw [BufferCompany.freeOf, hnone, List.countP_nil]
  · exact h u hbefore id hid

omit [Fintype T] in
/-- Taking a buffer frees none. -/
theorem Spent.take (h : s.Spent) (hc : s.company.Conserves s.rented) {t : T} {buffer : BufferId}
    {blocks : List BufferBlock} (htakes : BufferCompany.Takes s.company.blocks buffer blocks) :
    (s.take t buffer blocks).Spent := by
  intro u hu id hid
  have hfree : _ = (s.take t buffer blocks).company.freeOf id + _ := hc.freeOf_take htakes id
  have hlength : blocks.length = s.company.blocks.length := by
    obtain ⟨pre, block, block', post, hblocks, -, rfl⟩ := htakes
    rw [hblocks]
    simp
  have hbefore : s.Committed u := by
    have hcommits : (Function.update s.phase t .outside u).Commits
        (blocks.length = s.company.blockMaxCount) := hu
    rw [hlength] at hcommits
    exact (commits_of_update hcommits).resolve_left not_false
  rw [h u hbefore id hid] at hfree
  omega

omit [Fintype T] in
/-- A step that misses nobody keeps the other blocks spent. -/
theorem Spent.next (h : s.Holds bufferCount blockMaxCount)
    (hlast : ∀ u id, (s.phase u).WaitsFor id → s.company.blocks.length = s.company.blockMaxCount)
    (hspent : s.Spent) {step : ThreadStep T} (henabled : s.Enabled step)
    (hunmissed : s.Unmissed step) : (s.next step).Spent := by
  have hc := h.conserves
  have houtcome := h.outcome henabled
  generalize s.next step = s' at houtcome ⊢
  cases houtcome with
  | scanTakes _ htakes | rescanTakes _ htakes | tryTakes _ htakes => exact hspent.take hc htakes
  | scanFails _ hnone => exact hspent.moveTo _ fun _ => Or.inr hnone
  | testFull hphase hfull =>
    refine hspent.moveTo _ fun _ => Or.inl ?_
    rw [Committed, hphase]
    exact hfull
  | testRoom => exact hspent.moveTo _ False.elim
  | tryFails hphase | checkFinds hphase | checkFails hphase =>
    refine hspent.moveTo _ fun _ => Or.inl ?_
    rw [Committed, hphase]
    trivial
  | initMakes hphase hflag hlt =>
    intro u hu
    have hcommits : (s.phase u).Commits (s.company.blocks.length + 1 = s.company.blockMaxCount) :=
      (commits_of_update hu).resolve_left not_false
    cases hp : s.phase u with
    | scanned =>
      rw [hp] at hcommits
      exact absurd hp (hunmissed ⟨hflag, hcommits⟩ u)
    | trying block | checking block | asleep block =>
      exact absurd (hlast u block (by rw [hp]; rfl)) (Nat.ne_of_lt hlt)
    | outside | making | rescanning =>
      rw [hp] at hcommits
      exact hcommits.elim
  | @initLeaves t _ hphase _ =>
    have hmoved : (s.moveTo t .rescanning).Spent := hspent.moveTo t False.elim
    exact hmoved
  | rescanFails => exact hspent
  | @giveBack t buffer woken _ hrented hwoken _ =>
    intro u hu id hid
    have hlength := s.company.length_addFree buffer.block buffer
    have hbefore : ∃ v, s.Committed v := by
      cases woken with
      | none => exact ⟨u, by rw [Committed, ← hlength]; exact hu⟩
      | some v =>
        rcases commits_of_update hu with - | hcommits
        · exact ⟨v, by rw [Committed, hwoken v rfl]; trivial⟩
        · exact ⟨u, by rw [Committed, ← hlength]; exact hcommits⟩
    obtain ⟨v, hv⟩ := hbefore
    obtain ⟨block, hblock, hzero⟩ := hc.getLast?_eq h.length_pos
    have hbuffer : buffer.block = 0 := by
      by_contra hne
      refine hunmissed ?_ v hv
      rw [hblock, Option.map_some, hzero]
      exact fun hsome => hne (Option.some.inj hsome).symm
    have hreturned := (hc.of_perm (List.perm_cons_erase hrented)).freeOf_addFree id
    rw [if_neg (by omega), hspent v hv id hid] at hreturned
    cases woken with
    | none => exact hreturned
    | some v => exact hreturned

/-! ## Waiting -/

/-- The threads besides `t` that are about to take a buffer of the block `id`. -/
def othersAboutToTake (s : Threads T) (t : T) (id : Nat) : Nat :=
  (Finset.univ.filter fun u => u ≠ t ∧ (s.phase u).TakesFrom id).card

/-- Whoever waits while some block has a free buffer that no other thread is about to take has a
step to do. -/
def WaitersMove (s : Threads T) : Prop :=
  s.terminated = false → ∀ t, (∃ id, (s.phase t).WaitsFor id) →
    (∃ block ∈ s.company.blocks, s.othersAboutToTake t block.id < block.freeBuffers.length) →
      ∃ step : ThreadStep T, step.actor = t ∧ s.Enabled step

omit [DecidableEq T] [Fintype T] in
/-- A thread asleep takes no step. -/
theorem not_enabled_of_asleep {t : T} {id : Nat} (hphase : s.phase t = .asleep id)
    {step : ThreadStep T} (hactor : step.actor = t) : ¬ s.Enabled step := by
  intro henabled
  have houtside : s.phase step.actor ≠ .asleep id := by
    cases step with
    | giveBack t buffer woken =>
      cases woken with
      | some u => exact fun h => absurd (henabled.2.1.symm.trans h) Phase.noConfusion
      | none => exact fun h => absurd (henabled.2.1.symm.trans h) Phase.noConfusion
    | scan | test | initBlock | rescan | tryRent | check =>
      exact fun h => absurd (henabled.2.symm.trans h) Phase.noConfusion
  exact houtside (hactor ▸ hphase)

/--
**As long as no buffer becomes free in another block under a thread that is committed to the last
one, whoever waits while a free buffer has no taker has a step to do.**
-/
theorem waitersMove_of_unmissed {bufferSize : Nat} (hmax : 1 ≤ blockMaxCount)
    {steps : List (ThreadStep T)}
    (hruns : ((rentSystem T).restrict Unmissed).Runs
      (.new T bufferCount bufferSize blockMaxCount) steps s) : s.WaitersMove := by
  have hstart : (Threads.new T bufferCount bufferSize blockMaxCount).Orderly ∧
      (Threads.new T bufferCount bufferSize blockMaxCount).Spent := by
    refine ⟨⟨fun u id hu => hu.elim, fun u id hu => ?_⟩, fun u hu => hu.elim⟩
    cases hu
  obtain ⟨hholds, horderly, hspent⟩ := hruns.invariant
    (P := fun s => s.Holds bufferCount blockMaxCount ∧ s.Orderly ∧ s.Spent)
    ⟨Holds.new hmax, hstart⟩ fun s step h henabled =>
      ⟨h.1.next henabled.1, h.2.1.next h.1 henabled.1,
        h.2.2.next h.1 (fun u id hu => (h.2.1.lastBlock u id hu).2) henabled.1 henabled.2⟩
  intro hterminated t hwaits hfree
  obtain ⟨id, hid⟩ := hwaits
  cases hphase : s.phase t with
  | trying block => exact ⟨.tryRent t block, rfl, hterminated, hphase⟩
  | checking block => exact ⟨.check t block, rfl, hterminated, hphase⟩
  | asleep block =>
    exfalso
    obtain ⟨other, hother, hsurplus⟩ := hfree
    rw [← hholds.conserves.freeOf_eq hother] at hsurplus
    have hcommitted : s.Committed t := by
      rw [Committed, hphase]
      trivial
    have hzero : other.id = 0 := by
      by_contra hne
      rw [hspent t hcommitted other.id hne] at hsurplus
      cases hsurplus
    have hsame : block = 0 := (horderly.lastBlock t block (by rw [hphase]; rfl)).1
    have hnotified := horderly.notified t other.id (by rw [hphase, hsame, hzero])
    -- `t` sleeps, so the takers are others
    have hothers : processesAt (Phase.TakesFrom other.id) s.phase ≤ s.othersAboutToTake t other.id := by
      refine Finset.card_le_card fun u hu => ?_
      have htakes := (Finset.mem_filter.mp hu).2
      refine Finset.mem_filter.mpr ⟨Finset.mem_univ u, ?_, htakes⟩
      rintro rfl
      rw [hphase] at htakes
      exact htakes
    omega
  | outside | scanned | making | rescanning =>
    rw [hphase] at hid
    exact hid.elim

/-- A thread sleeps, and the buffer that it waits for comes back. -/
def wokenUp : List (ThreadStep (Fin 2)) :=
  [.scan 0, .scan 1, .test 1, .tryRent 1 0, .check 1 0, .giveBack 0 ⟨0, 0⟩ (some 1)]

/-- A thread that falls asleep and is woken up. -/
theorem waitersMove_of_unmissed_wokenUp :
    ∃ s, ((rentSystem (Fin 2)).restrict Unmissed).Runs (.new (Fin 2) 1 1 1) wokenUp s ∧
      s.WaitersMove := by
  have hpossible : ((rentSystem (Fin 2)).restrict Unmissed).Possible (.new (Fin 2) 1 1 1)
      wokenUp := by decide +kernel
  have hruns := TransitionSystem.Runs.nil.append_of_possible hpossible
  exact ⟨_, hruns, waitersMove_of_unmissed (by decide) hruns⟩

/-- With two blocks, the buffer of the other one comes back, and nobody takes it. -/
def leftAsleep {T : Type} (t u v : T) : List (ThreadStep T) :=
  [.scan t, .scan u, .test u, .initBlock u, .rescan u, .scan v, .test v, .tryRent v 0, .check v 0,
    .giveBack u ⟨1, 0⟩ none]

/-- A thread is left asleep in some order of steps. -/
theorem not_waitersMove_leftAsleep : ¬ ∀ (threads bufferCount bufferSize blockMaxCount : Nat),
    1 ≤ bufferCount → 1 ≤ bufferSize → 1 ≤ blockMaxCount →
      ∀ (steps : List (ThreadStep (Fin threads))) (s : Threads (Fin threads)),
        (rentSystem (Fin threads)).Runs (.new _ bufferCount bufferSize blockMaxCount) steps s →
          s.WaitersMove := by
  intro h
  have hpossible : (rentSystem (Fin 3)).Possible (.new (Fin 3) 1 1 2) (leftAsleep 0 1 2) := by
    decide +kernel
  have hmove := h 3 1 1 2 (by decide) (by decide) (by decide) _ _
    (TransitionSystem.Runs.nil.append_of_possible hpossible)
  have hasleep : ((leftAsleep 0 1 2).foldl (rentSystem (Fin 3)).next (.new _ 1 1 2)).phase 2 =
      .asleep 0 := by decide +kernel
  obtain ⟨step, hactor, henabled⟩ := hmove (by decide +kernel) 2 ⟨0, by rw [hasleep]; rfl⟩
    (by decide +kernel)
  exact not_enabled_of_asleep hasleep hactor henabled

end Threads

end Rakro
