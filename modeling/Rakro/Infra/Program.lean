import Mathlib.Order.Defs.Unbundled
import Mathlib.Data.List.Induction

/-!
# Programs whose state survives an exception

An object with methods that may throw keeps whatever the method had written before it threw.
`EStateM ε σ` is that monad: both results carry a state.

Three judgments are enough for one call.

* `Within R m` bounds what `m` may do to the state, however it ends. `R` is a preorder, so the
  judgment composes along `bind`.
* `Succeeds m s` says that `m` started in `s` returns normally.
* `Raises E m` says that every exception of `m` is one of `E`.

`Maintains P R E m` is the first and the last of them, of the states in `P` and no others, and says
that `m` stays there.

`Yields P m Q` is about what returns only: from `P`, with `Q` of the result and the state.

A run is a list of calls. `afterAll` is the state it leaves when the caller goes on after an
exception, `Reaches` relates the states of a run that ends with one.
-/

namespace Infra

variable {ε σ α β : Type}

/-! ## Running a sequence -/

/-- Behind a return the rest runs from the state it left. -/
theorem run_bind_of_ok {m : EStateM ε σ α} {f : α → EStateM ε σ β} {s s' : σ} {a : α}
    (h : m.run s = .ok a s') : (m >>= f).run s = (f a).run s' := by
  rw [EStateM.run_bind, h]

/-- Behind an exception the rest does not run. -/
theorem run_bind_of_error {m : EStateM ε σ α} {f : α → EStateM ε σ β} {s s' : σ} {e : ε}
    (h : m.run s = .error e s') : (m >>= f).run s = .error e s' := by
  rw [EStateM.run_bind, h]

theorem run_get_bind (f : σ → EStateM ε σ α) (s : σ) : (get >>= f).run s = (f s).run s := rfl

/-- A sequence that returns has returned from each of its parts. -/
theorem bind_eq_ok {m : EStateM ε σ α} {f : α → EStateM ε σ β} {s s'' : σ} {b : β}
    (h : (m >>= f).run s = .ok b s'') :
    ∃ a s', m.run s = .ok a s' ∧ (f a).run s' = .ok b s'' := by
  cases hm : m.run s with
  | ok a s' => exact ⟨a, s', rfl, by rwa [run_bind_of_ok hm] at h⟩
  | error e s' => rw [run_bind_of_error hm] at h; cases h

/-! ## The state left behind -/

/-- The state that `m` leaves when it is started in `s`, whether it returned or threw. -/
def after (m : EStateM ε σ α) (s : σ) : σ :=
  match m.run s with
  | .ok _ s' => s'
  | .error _ s' => s'

/-- The state behind a return. -/
theorem after_of_ok {m : EStateM ε σ α} {s s' : σ} {a : α} (h : m.run s = .ok a s') :
    after m s = s' := by
  unfold after
  rw [h]

/-- The state behind an exception. -/
theorem after_of_error {m : EStateM ε σ α} {s s' : σ} {e : ε} (h : m.run s = .error e s') :
    after m s = s' := by
  unfold after
  rw [h]

/-- Only the result counts. -/
theorem after_congr {m n : EStateM ε σ α} {s t : σ} (h : m.run s = n.run t) :
    after m s = after n t := by
  unfold after
  rw [h]

@[simp] theorem after_pure (a : α) (s : σ) : after (pure a : EStateM ε σ α) s = s := rfl

/-- Behind a return the rest decides the state. -/
theorem after_bind_ok {m : EStateM ε σ α} {f : α → EStateM ε σ β} {s s' : σ} {a : α}
    (h : m.run s = .ok a s') : after (m >>= f) s = after (f a) s' := by
  unfold after
  rw [run_bind_of_ok h]

/-- Behind an exception the state stays. -/
theorem after_bind_error {m : EStateM ε σ α} {f : α → EStateM ε σ β} {s s' : σ} {e : ε}
    (h : m.run s = .error e s') : after (m >>= f) s = s' := by
  unfold after
  rw [run_bind_of_error h]

theorem after_get_bind (f : σ → EStateM ε σ α) (s : σ) :
    after (get >>= f) s = after (f s) s := rfl

/-! ## What a program may do to the state -/

/-- However `m` ends, the state it leaves is related by `R` to the one it was started in. -/
def Within (R : σ → σ → Prop) (m : EStateM ε σ α) : Prop := ∀ s, R s (after m s)

section Within

variable {R : σ → σ → Prop}

theorem Within.mono {R' : σ → σ → Prop} (hR : ∀ s s', R s s' → R' s s')
    {m : EStateM ε σ α} (h : Within R m) : Within R' m := fun s => hR _ _ (h s)

/-- What returns has kept it too. -/
theorem Within.of_run {m : EStateM ε σ α} {s s' : σ} {a : α} (h : Within R m)
    (hrun : m.run s = .ok a s') : R s s' := after_of_ok hrun ▸ h s

theorem Within.ite {c : Prop} [Decidable c] {m n : EStateM ε σ α} (hm : Within R m)
    (hn : Within R n) : Within R (if c then m else n) := by
  split
  · exact hm
  · exact hn

variable [IsPreorder σ R]

theorem Within.pure (a : α) : Within R (pure a : EStateM ε σ α) := fun s => refl s

theorem Within.throw (e : ε) : Within R (throw e : EStateM ε σ α) := fun s => refl s

theorem Within.get : Within R (get : EStateM ε σ σ) := fun s => refl s

/-- Two parts that keep to a transitive relation keep to it together. -/
theorem Within.bind {m : EStateM ε σ α} {f : α → EStateM ε σ β} (hm : Within R m)
    (hf : ∀ a, Within R (f a)) : Within R (m >>= f) := by
  intro s
  cases h : m.run s with
  | ok a s' =>
    rw [after_bind_ok h]
    have h1 : R s s' := after_of_ok h ▸ hm s
    exact IsTrans.trans _ _ _ h1 (hf a s')
  | error e s' =>
    rw [after_bind_error h]
    exact after_of_error h ▸ hm s

/-- What comes behind is related to what has come before. -/
theorem Within.after_bind {f : α → EStateM ε σ β} (hf : ∀ a, Within R (f a)) (m : EStateM ε σ α)
    (s : σ) : R (after m s) (after (m >>= f) s) := by
  cases h : m.run s with
  | ok a s' => rw [after_bind_ok h, after_of_ok h]; exact hf a s'
  | error e s' => rw [after_bind_error h, after_of_error h]; exact refl s'

theorem Within.forM {f : α → EStateM ε σ PUnit} (hf : ∀ a, Within R (f a)) :
    ∀ l : List α, Within R (l.forM f)
  | [] => Within.pure _
  | a :: l => Within.bind (hf a) fun _ => Within.forM hf l

end Within

/-! ## Returning normally -/

/-- Started in `s`, `m` returns. -/
def Succeeds (m : EStateM ε σ α) (s : σ) : Prop := ∃ a s', m.run s = .ok a s'

theorem succeeds_of_ok {m : EStateM ε σ α} {s s' : σ} {a : α} (h : m.run s = .ok a s') :
    Succeeds m s := ⟨a, s', h⟩

theorem not_succeeds_of_error {m : EStateM ε σ α} {s s' : σ} {e : ε}
    (h : m.run s = .error e s') : ¬ Succeeds m s := by
  rintro ⟨a, s'', hok⟩
  rw [h] at hok
  cases hok

@[simp] theorem succeeds_pure (a : α) (s : σ) : Succeeds (pure a : EStateM ε σ α) s :=
  ⟨a, s, rfl⟩

@[simp] theorem not_succeeds_throw (e : ε) (s : σ) : ¬ Succeeds (throw e : EStateM ε σ α) s :=
  not_succeeds_of_error rfl

instance (m : EStateM ε σ α) (s : σ) : Decidable (Succeeds m s) :=
  match h : m.run s with
  | .ok a s' => isTrue ⟨a, s', h⟩
  | .error _ _ => isFalse (not_succeeds_of_error h)

theorem succeeds_congr {m n : EStateM ε σ α} {s t : σ} (h : m.run s = n.run t) :
    Succeeds m s ↔ Succeeds n t := by
  unfold Succeeds
  rw [h]

/-- What returns leaves the state that `after` names. -/
theorem Succeeds.run {m : EStateM ε σ α} {s : σ} (h : Succeeds m s) :
    ∃ a, m.run s = .ok a (after m s) := by
  obtain ⟨a, s', hrun⟩ := h
  exact ⟨a, by rw [after_of_ok hrun]; exact hrun⟩

/-- What does not return throws. -/
theorem run_of_not_succeeds {m : EStateM ε σ α} {s : σ} (h : ¬ Succeeds m s) :
    ∃ e, m.run s = .error e (after m s) := by
  cases hm : m.run s with
  | ok a s' => exact absurd ⟨a, s', hm⟩ h
  | error e s' => exact ⟨e, by rw [after_of_error hm]⟩

theorem succeeds_bind_of_ok {m : EStateM ε σ α} {f : α → EStateM ε σ β} {s s' : σ} {a : α}
    (h : m.run s = .ok a s') : Succeeds (m >>= f) s ↔ Succeeds (f a) s' := by
  unfold Succeeds
  rw [run_bind_of_ok h]

theorem succeeds_get_bind (f : σ → EStateM ε σ α) (s : σ) :
    Succeeds (get >>= f) s ↔ Succeeds (f s) s := Iff.rfl

/-- A sequence that returns has returned from its first part. -/
theorem Succeeds.of_bind {m : EStateM ε σ α} {f : α → EStateM ε σ β} {s : σ}
    (h : Succeeds (m >>= f) s) : Succeeds m s := by
  obtain ⟨b, s'', hrun⟩ := h
  obtain ⟨a, s', hm, -⟩ := bind_eq_ok hrun
  exact ⟨a, s', hm⟩

/-- What follows may be judged on its own when it always returns. -/
theorem succeeds_bind_iff {m : EStateM ε σ α} {f : α → EStateM ε σ β} {s : σ}
    (hf : ∀ a s', Succeeds (f a) s') : Succeeds (m >>= f) s ↔ Succeeds m s := by
  constructor
  · exact Succeeds.of_bind
  · rintro ⟨a, s', hm⟩
    exact (succeeds_bind_of_ok hm).mpr (hf a s')

/-! ## What may be thrown -/

/-- Wherever `m` is started, what it throws satisfies `E`. -/
def Raises (E : ε → Prop) (m : EStateM ε σ α) : Prop := ∀ s e s', m.run s = .error e s' → E e

section Raises

variable {E : ε → Prop}

/-- An exception that was raised is one of those allowed. -/
theorem Raises.of_run {m : EStateM ε σ α} {s s' : σ} {e : ε} (h : Raises E m)
    (hrun : m.run s = .error e s') : E e := h s e s' hrun

theorem Raises.pure (a : α) : Raises E (pure a : EStateM ε σ α) := by
  intro s e s' h
  cases h

theorem Raises.throw {e : ε} (he : E e) : Raises E (throw e : EStateM ε σ α) := by
  intro s e' s' h
  cases h
  exact he

/-- What always returns throws nothing. -/
theorem Raises.of_succeeds {m : EStateM ε σ α} (h : ∀ s, Succeeds m s) : Raises E m := by
  intro s e s' herror
  exact absurd (h s) (not_succeeds_of_error herror)

theorem Raises.get : Raises E (get : EStateM ε σ σ) := .of_succeeds fun s => ⟨s, s, rfl⟩

theorem Raises.modify (f : σ → σ) : Raises E (modify f : EStateM ε σ PUnit) :=
  .of_succeeds fun s => ⟨⟨⟩, f s, rfl⟩

theorem Raises.bind {m : EStateM ε σ α} {f : α → EStateM ε σ β} (hm : Raises E m)
    (hf : ∀ a, Raises E (f a)) : Raises E (m >>= f) := by
  intro s e s'' h
  cases hrun : m.run s with
  | ok a s' =>
    rw [run_bind_of_ok hrun] at h
    exact hf a s' e s'' h
  | error e' s' =>
    rw [run_bind_of_error hrun] at h
    cases h
    exact hm s _ _ hrun

theorem Raises.ite {c : Prop} [Decidable c] {m n : EStateM ε σ α} (hm : Raises E m)
    (hn : Raises E n) : Raises E (if c then m else n) := by
  split
  · exact hm
  · exact hn

theorem Raises.forM {f : α → EStateM ε σ PUnit} (hf : ∀ a, Raises E (f a)) :
    ∀ l : List α, Raises E (l.forM f)
  | [] => Raises.pure _
  | a :: l => Raises.bind (hf a) fun _ => Raises.forM hf l

end Raises

/-! ## From the states of a kind -/

/--
Started in `P`, however `m` ends, it leaves a state of `P` that `R` relates to the one before, and
what it throws satisfies `E`.
-/
def Maintains (P : σ → Prop) (R : σ → σ → Prop) (E : ε → Prop) (m : EStateM ε σ α) : Prop :=
  ∀ s, P s → P (after m s) ∧ R s (after m s) ∧ ∀ e s', m.run s = .error e s' → E e

section Maintains

variable {P : σ → Prop} {R : σ → σ → Prop} {E : ε → Prop}

theorem Maintains.mono {R' : σ → σ → Prop} (hR : ∀ s s', R s s' → R' s s')
    {m : EStateM ε σ α} (h : Maintains P R E m) : Maintains P R' E m := by
  intro s hs
  obtain ⟨hP, hrel, herror⟩ := h s hs
  exact ⟨hP, hR _ _ hrel, herror⟩

theorem Maintains.ite {c : Prop} [Decidable c] {m n : EStateM ε σ α} (hm : Maintains P R E m)
    (hn : Maintains P R E n) : Maintains P R E (if c then m else n) := by
  split
  · exact hm
  · exact hn

/-- What has looked at the state knows that it is one of the kind. -/
theorem Maintains.get_bind {f : σ → EStateM ε σ β} (hf : ∀ s, P s → Maintains P R E (f s)) :
    Maintains P R E (get >>= f) := fun s hs => hf s hs s hs

variable [IsPreorder σ R]

theorem Maintains.pure (a : α) : Maintains P R E (pure a : EStateM ε σ α) := by
  intro s hs
  refine ⟨hs, refl s, fun e s' h => ?_⟩
  cases h

theorem Maintains.throw {e : ε} (he : E e) : Maintains P R E (throw e : EStateM ε σ α) := by
  intro s hs
  refine ⟨hs, refl s, fun e' s' h => ?_⟩
  cases h
  exact he

theorem Maintains.bind {m : EStateM ε σ α} {f : α → EStateM ε σ β} (hm : Maintains P R E m)
    (hf : ∀ a, Maintains P R E (f a)) : Maintains P R E (m >>= f) := by
  intro s hs
  obtain ⟨hP, hrel, herror⟩ := hm s hs
  cases h : m.run s with
  | ok a s' =>
    rw [after_of_ok h] at hP hrel
    obtain ⟨hP', hrel', herror'⟩ := hf a s' hP
    rw [after_bind_ok h, run_bind_of_ok h]
    exact ⟨hP', IsTrans.trans _ _ _ hrel hrel', herror'⟩
  | error e s' =>
    rw [after_of_error h] at hP hrel
    rw [after_bind_error h, run_bind_of_error h]
    refine ⟨hP, hrel, fun e' s'' h' => ?_⟩
    cases h'
    exact herror _ _ h

end Maintains

/-! ## What holds on return -/

/-- Started in `P`, what `m` returns and the state it leaves satisfy `Q`. -/
def Yields (P : σ → Prop) (m : EStateM ε σ α) (Q : α → σ → Prop) : Prop :=
  ∀ s a s', P s → m.run s = .ok a s' → Q a s'

section Yields

variable {ι : Type} {P : σ → Prop} {Q : α → σ → Prop} {R : β → σ → Prop} {m : EStateM ε σ α}

theorem Yields.mono {Q' : α → σ → Prop} (hQ : ∀ a s, Q a s → Q' a s) (h : Yields P m Q) :
    Yields P m Q' := fun s a s' hs hrun => hQ a s' (h s a s' hs hrun)

theorem Yields.pure {a : α} (h : ∀ s, P s → Q a s) : Yields P (pure a : EStateM ε σ α) Q := by
  intro s a' s' hs hrun
  cases hrun
  exact h s hs

theorem Yields.throw (e : ε) : Yields P (throw e : EStateM ε σ α) Q := by
  intro s a s' _ hrun
  cases hrun

/-- The postcondition of the first part is the precondition of the second. -/
theorem Yields.bind {f : α → EStateM ε σ β} (hm : Yields P m Q) (hf : ∀ a, Yields (Q a) (f a) R) :
    Yields P (m >>= f) R := by
  intro s b s'' hs hrun
  obtain ⟨a, s', hfirst, hrest⟩ := bind_eq_ok hrun
  exact hf a s' b s'' (hm s a s' hs hfirst) hrest

theorem Yields.get_bind {f : σ → EStateM ε σ α} (hf : ∀ s, P s → Yields P (f s) Q) :
    Yields P (get >>= f) Q := fun s a s' hs hrun => hf s hs s a s' hs hrun

theorem Yields.ite {c : Prop} [Decidable c] {n : EStateM ε σ α} (hm : c → Yields P m Q)
    (hn : ¬ c → Yields P n Q) : Yields P (if c then m else n) Q := by
  split
  · exact hm ‹_›
  · exact hn ‹_›

/-- A state in which something exists is one for some witness. -/
theorem Yields.of_exists {P : ι → σ → Prop} (h : ∀ i, Yields (P i) m Q) :
    Yields (fun s => ∃ i, P i s) m Q := by
  rintro s a s' ⟨i, hs⟩ hrun
  exact h i s a s' hs hrun

/-- What does not depend on the state may be assumed. -/
theorem Yields.of_and {p : Prop} (h : p → Yields P m Q) : Yields (fun s => p ∧ P s) m Q := by
  rintro s a s' ⟨hp, hs⟩ hrun
  exact h hp s a s' hs hrun

theorem Yields.forM {f : α → EStateM ε σ PUnit} (hf : ∀ a, Yields P (f a) fun _ => P) :
    ∀ l : List α, Yields P (l.forM f) fun _ => P
  | [] => Yields.pure fun _ hs => hs
  | a :: l => Yields.bind (hf a) fun _ => Yields.forM hf l

end Yields

/-! ## Runs -/

/-- The state after `f` has been called with the elements of a list, one after the other. -/
def afterAll (f : α → EStateM ε σ PUnit) (s : σ) (l : List α) : σ :=
  l.foldl (fun s a => after (f a) s) s

@[simp] theorem afterAll_nil (f : α → EStateM ε σ PUnit) (s : σ) : afterAll f s [] = s := rfl

/-- The last item acts on what the ones before it leave. -/
@[simp] theorem afterAll_concat (f : α → EStateM ε σ PUnit) (s : σ) (l : List α) (a : α) :
    afterAll f s (l ++ [a]) = after (f a) (afterAll f s l) := by
  unfold afterAll
  rw [List.foldl_append]
  rfl

/-- What has been noted at the calls of a run, at each of them in the state that it starts in. -/
def noted {γ : Type} (f : α → EStateM ε σ PUnit) (note : γ → α → σ → γ) : γ → σ → List α → γ
  | g, _, [] => g
  | g, s, a :: l => noted f note (note g a s) (after (f a) s) l

/-- The last item is noted in front of what the ones before it leave. -/
theorem noted_concat {γ : Type} {f : α → EStateM ε σ PUnit} {note : γ → α → σ → γ} (a : α)
    (l : List α) : ∀ (g : γ) (s : σ),
      noted f note g s (l ++ [a]) = note (noted f note g s l) a (afterAll f s l) := by
  induction l with
  | nil => exact fun _ _ => rfl
  | cons b l ih => exact fun g s => ih (note g b s) (after (f b) s)

/-- A call of a run is its last one, or a call of the run before. -/
theorem last_or_earlier {l l₀ mid : List α} {a d : α} (h : l ++ [a] = l₀ ++ d :: mid) :
    (l₀ = l ∧ d = a) ∨ ∃ mid', l = l₀ ++ d :: mid' := by
  rcases List.eq_nil_or_concat mid with rfl | ⟨mid, last, rfl⟩
  · obtain ⟨rfl, hlast⟩ := List.append_inj' h rfl
    exact .inl ⟨rfl, (List.singleton_inj.mp hlast).symm⟩
  · rw [List.concat_eq_append, ← List.cons_append, ← List.append_assoc] at h
    exact .inr ⟨mid, (List.append_inj' h rfl).1⟩

/-- What each call of a run preserves holds after every part of the run. -/
theorem afterAll_induction {P : List α → σ → Prop} {f : α → EStateM ε σ PUnit} {s : σ}
    {as : List α} (hnil : P [] s) (hstep : ∀ l a, l ++ [a] <+: as → P l (afterAll f s l) →
      P (l ++ [a]) (after (f a) (afterAll f s l))) (l : List α) (hl : l <+: as) :
    P l (afterAll f s l) := by
  induction l using List.reverseRecOn with
  | nil => exact hnil
  | append_singleton l a ih =>
    rw [afterAll_concat]
    exact hstep l a hl (ih ((List.prefix_append l [a]).trans hl))

/-- A run of calls that stay among the states of a kind stays there. -/
theorem Maintains.holds_afterAll {P : σ → Prop} {R : σ → σ → Prop} {E : ε → Prop}
    {f : α → EStateM ε σ PUnit} (hf : ∀ a, Maintains P R E (f a)) {s : σ} (hs : P s)
    (l : List α) : P (afterAll f s l) :=
  afterAll_induction hs (fun _ a _ hP => (hf a _ hP).1) l (List.prefix_refl l)

/-- What each call keeps, the run has kept in the end. -/
theorem Maintains.rel_afterAll {P : σ → Prop} {R : σ → σ → Prop} {E : ε → Prop} [IsPreorder σ R]
    {f : α → EStateM ε σ PUnit} (hf : ∀ a, Maintains P R E (f a)) {s : σ} (hs : P s)
    (l : List α) : R s (afterAll f s l) := by
  refine (afterAll_induction (P := fun _ s' => P s' ∧ R s s') ⟨hs, refl s⟩ (fun _ a _ h => ?_) l
    (List.prefix_refl l)).2
  obtain ⟨hP, hrel, -⟩ := hf a _ h.1
  exact ⟨hP, IsTrans.trans _ _ _ h.2 hrel⟩

/-- The states that a run from `s` goes through as long as no call throws. -/
inductive Reaches (f : α → EStateM ε σ PUnit) (s : σ) : List α → σ → Prop
  | nil : Reaches f s [] s
  | snoc {l : List α} {a : α} {s' s'' : σ} : Reaches f s l s' → (f a).run s' = .ok ⟨⟩ s'' →
      Reaches f s (l ++ [a]) s''

theorem Reaches.trans {f : α → EStateM ε σ PUnit} {s s' s'' : σ} {l l' : List α}
    (h : Reaches f s l s') (h' : Reaches f s' l' s'') : Reaches f s (l ++ l') s'' := by
  induction h' with
  | nil => rwa [List.append_nil]
  | snoc _ hrun ih =>
    rw [← List.append_assoc]
    exact ih.snoc hrun

/-- The last call has returned in a state that the run reaches without it. -/
theorem Reaches.of_concat {f : α → EStateM ε σ PUnit} {s s'' : σ} {l : List α} {a : α}
    (h : Reaches f s (l ++ [a]) s'') : ∃ s', Reaches f s l s' ∧ (f a).run s' = .ok ⟨⟩ s'' := by
  generalize hl : l ++ [a] = l' at h
  cases h with
  | nil => simp at hl
  | snoc h hrun =>
    obtain ⟨rfl, hlast⟩ := List.append_inj' hl rfl
    cases List.singleton_inj.mp hlast
    exact ⟨_, h, hrun⟩

/-- What each call keeps holds in every state of a run. -/
theorem Reaches.holds {P : σ → Prop} {f : α → EStateM ε σ PUnit} {s s' : σ} {l : List α}
    (h : Reaches f s l s') (hs : P s) (hf : ∀ a, Yields P (f a) fun _ => P) : P s' := by
  induction h with
  | nil => exact hs
  | snoc _ hrun ih => exact hf _ _ _ _ ih hrun

/-- `C` holds of every call of a run and the state that it starts in. -/
def Along (f : α → EStateM ε σ PUnit) (C : σ → α → Prop) : σ → List α → Prop
  | _, [] => True
  | s, a :: l => C s a ∧ Along f C (after (f a) s) l

instance decidableAlong (f : α → EStateM ε σ PUnit) (C : σ → α → Prop)
    [∀ s a, Decidable (C s a)] : (s : σ) → (l : List α) → Decidable (Along f C s l)
  | _, [] => isTrue trivial
  | s, a :: l => @instDecidableAnd _ _ _ (decidableAlong f C (after (f a) s) l)

/-- A condition holds along a run when it holds up to the last step and at it. -/
theorem along_concat {f : α → EStateM ε σ PUnit} {C : σ → α → Prop} {s : σ} {l : List α} {a : α} :
    Along f C s (l ++ [a]) ↔ Along f C s l ∧ C (afterAll f s l) a := by
  induction l generalizing s with
  | nil => exact and_comm
  | cons b l ih =>
    show C s b ∧ Along f C (after (f b) s) (l ++ [a]) ↔ _
    rw [ih, ← and_assoc]
    rfl

/-- A run is determined by its items. -/
theorem Reaches.eq_afterAll {f : α → EStateM ε σ PUnit} {s s' : σ} {l : List α}
    (h : Reaches f s l s') : s' = afterAll f s l := by
  induction h with
  | nil => rfl
  | snoc _ hrun ih => rw [afterAll_concat, ← ih, after_of_ok hrun]

/-- What each call keeps that `C` allows holds in every state of a run of such calls. -/
theorem Reaches.holds_along {P : σ → Prop} {C : σ → α → Prop} {f : α → EStateM ε σ PUnit}
    {s s' : σ} {l : List α} (h : Reaches f s l s') (hs : P s) (halong : Along f C s l)
    (hf : ∀ a s s', P s → C s a → (f a).run s = .ok ⟨⟩ s' → P s') : P s' := by
  induction h with
  | nil => exact hs
  | snoc hreach hrun ih =>
    obtain ⟨hearlier, hlast⟩ := along_concat.mp halong
    rw [← hreach.eq_afterAll] at hlast
    exact hf _ _ _ (ih hearlier) hlast hrun

/-- The calls in a sequence. -/
theorem Reaches.append_of_forM {f : α → EStateM ε σ PUnit} {s s' s'' : σ} {l₀ : List α}
    (h : Reaches f s l₀ s') (l : List α) (hrun : (l.forM f).run s' = .ok ⟨⟩ s'') :
    Reaches f s (l₀ ++ l) s'' := by
  induction l generalizing l₀ s' with
  | nil =>
    cases hrun
    rwa [List.append_nil]
  | cons a l ih =>
    obtain ⟨⟨⟩, s₁, ha, hrest⟩ := bind_eq_ok hrun
    have hsnoc := ih (h.snoc ha) hrest
    rwa [List.append_assoc] at hsnoc

/-- Calls that return in a sequence are a run. -/
theorem reaches_of_succeeds {f : α → EStateM ε σ PUnit} {s : σ} {l : List α}
    (h : Succeeds (l.forM f) s) : Reaches f s l (afterAll f s l) := by
  obtain ⟨⟨⟩, hrun⟩ := h.run
  have hreach := Reaches.nil.append_of_forM l hrun
  rw [List.nil_append] at hreach
  rwa [← hreach.eq_afterAll]

/-! ## One part of the state

A state may have parts, one for each index. `WorksOn part i step m s` says that `m`, started in `s`,
leaves every part but that of `i`, and that it takes this one on by `step` when it returns. Two such
programs on two parts may be exchanged.
-/

section WorksOn

variable {π ι : Type}

/-- `m` works on the part `i` and leaves the others alone. -/
structure WorksOn (part : ι → σ → π) (i : ι) (step : π → π) (m : EStateM ε σ α) (s : σ) : Prop where
  own : Succeeds m s → part i (after m s) = step (part i s)
  others : ∀ j, j ≠ i → part j (after m s) = part j s

variable {part : ι → σ → π} {i j : ι} {f g : π → π} {m : EStateM ε σ α} {n : EStateM ε σ β} {s : σ}

/-- Behind a program on another part, the part is taken on as it is in front of it. -/
theorem WorksOn.own_after (hn : WorksOn part j g n s) (hm : WorksOn part i f m (after n s))
    (hne : i ≠ j) (hreturns : Succeeds m (after n s)) :
    part i (after m (after n s)) = f (part i s) := by
  rw [hm.own hreturns, hn.others i hne]

/-- Programs on two parts leave the same parts in either order. -/
theorem WorksOn.comm (hne : i ≠ j) (hm : WorksOn part i f m s) (hn : WorksOn part j g n s)
    (hm' : WorksOn part i f m (after n s)) (hn' : WorksOn part j g n (after m s))
    (hm_returns : Succeeds m s) (hn_returns : Succeeds n s)
    (hm'_returns : Succeeds m (after n s)) (hn'_returns : Succeeds n (after m s)) (k : ι) :
    part k (after n (after m s)) = part k (after m (after n s)) := by
  by_cases hi : k = i
  · rw [hi, hn'.others i hne, hm.own hm_returns, hn.own_after hm' hne hm'_returns]
  · by_cases hj : k = j
    · rw [hj, hm'.others j hne.symm, hn.own hn_returns, hm.own_after hn' hne.symm hn'_returns]
    · rw [hn'.others k hj, hm.others k hi, hm'.others k hi, hn.others k hj]

end WorksOn

end Infra
