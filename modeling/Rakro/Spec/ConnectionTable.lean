import Mathlib.Logic.Function.Basic
import Mathlib.Data.List.Induction

/-!
# The connection table

What a server knows of its peers: which offers it has made, and which peers have a session. An offer
can be renewed at any time. A peer that takes its offer up gets a session, unless it has one. A
session changes while it is used, and ends when the peer is given up; the offer stays.

Where a session comes from can be told from the moves of a run, as `exists_join` says.
-/

namespace Rakro

/-- Who has been made an offer and who has a session. -/
structure ConnectionTable (A O S : Type) where
  offers : A → Option O := fun _ => none
  sessions : A → Option S := fun _ => none

namespace ConnectionTable

/-- What may happen to one address at a time. -/
inductive Move (A O S : Type)
  | stay
  | offer (a : A) (o : O)
  /-- `a` takes its offer up, for the session that is made of it. -/
  | join (a : A) (accept : O → S)
  | use (a : A) (f : S → S)
  | leave (a : A)

variable {A O S : Type} [DecidableEq A]

/-- The table behind a move. -/
def apply (table : ConnectionTable A O S) : Move A O S → ConnectionTable A O S
  | .stay => table
  | .offer a o => { table with offers := Function.update table.offers a (some o) }
  | .join a accept =>
    { table with
      sessions :=
        Function.update table.sessions a
          ((table.sessions a).or ((table.offers a).map accept)) }
  | .use a f => { table with sessions := Function.update table.sessions a ((table.sessions a).map f) }
  | .leave a => { table with sessions := Function.update table.sessions a none }

/-- The table after the moves of a list, from an empty one. -/
def run (moves : List (Move A O S)) : ConnectionTable A O S := moves.foldl apply {}

@[simp] theorem run_nil : run ([] : List (Move A O S)) = {} := rfl

@[simp] theorem run_concat (moves : List (Move A O S)) (move : Move A O S) :
    run (moves ++ [move]) = (run moves).apply move := by
  unfold run
  rw [List.foldl_append]
  rfl

/-- What a move makes of the session that `a` has. -/
def used (a : A) (s : S) : Move A O S → S
  | .use a' f => if a' = a then f s else s
  | _ => s

/-- The peer that a move is made by. -/
def Move.peer : Move A O S → Option A
  | .stay => none
  | .offer a _ | .join a _ | .use a _ | .leave a => some a

section Apply

variable {table : ConnectionTable A O S} {move : Move A O S} {a : A} {o : O} {s : S}

/-- Nothing is used where there is no session. -/
theorem apply_use_of_none (h : table.sessions a = none) (f : S → S) :
    table.apply (.use a f) = table := by
  show ({ table with sessions := Function.update _ a ((table.sessions a).map f) } :
    ConnectionTable A O S) = table
  rw [h, Option.map_none, ← h, Function.update_eq_self]

/-- A session is used in its place. -/
theorem apply_use (h : table.sessions a = some s) (f : S → S) :
    table.apply (.use a f) =
      { table with sessions := Function.update table.sessions a (some (f s)) } := by
  show ({ table with sessions := Function.update _ a ((table.sessions a).map f) } :
    ConnectionTable A O S) = _
  rw [h, Option.map_some]

/-- Who has a session already makes none of a second offer. -/
theorem apply_join_of_some (h : table.sessions a = some s) (accept : O → S) :
    table.apply (.join a accept) = table := by
  show ({ table with sessions := Function.update _ a ((table.sessions a).or _) } :
    ConnectionTable A O S) = table
  rw [h, Option.some_or, ← h, Function.update_eq_self]

/-- An offer is taken up. -/
theorem apply_join (hoffer : table.offers a = some o) (h : table.sessions a = none)
    (accept : O → S) : table.apply (.join a accept) =
      { table with sessions := Function.update table.sessions a (some (accept o)) } := by
  show ({ table with sessions := Function.update _ a ((table.sessions a).or
    ((table.offers a).map accept)) } : ConnectionTable A O S) = _
  rw [h, hoffer, Option.none_or, Option.map_some]

/-- The moves of the others leave a peer's offer and session alone. -/
theorem apply_of_peer_ne (table : ConnectionTable A O S) (h : move.peer ≠ some a) :
    (table.apply move).offers a = table.offers a ∧
      (table.apply move).sessions a = table.sessions a := by
  cases move with
  | stay => exact ⟨rfl, rfl⟩
  | offer a' _ => exact ⟨Function.update_of_ne (fun ha => h (congrArg some ha.symm)) _ _, rfl⟩
  | join a' _ | use a' _ | leave a' =>
    exact ⟨rfl, Function.update_of_ne (fun ha => h (congrArg some ha.symm)) _ _⟩

/-- An offer is there already, or it is made by the move. -/
theorem offers_apply (h : (table.apply move).offers a = some o) :
    move = .offer a o ∨ table.offers a = some o ∧ ∀ o', move ≠ .offer a o' := by
  cases move with
  | offer a' o' =>
    by_cases ha : a = a'
    · subst ha
      have hsome : Function.update table.offers a (some o') a = some o := h
      rw [Function.update_self] at hsome
      exact .inl (congrArg (Move.offer a) (Option.some.inj hsome))
    · refine .inr ⟨(Function.update_of_ne ha _ _).symm.trans h, ?_⟩
      rintro o'' ⟨⟩
      exact ha rfl
  | _ => exact .inr ⟨h, nofun⟩

/-- A session is there already and goes on, or it is made of an offer. -/
theorem sessions_apply (h : (table.apply move).sessions a = some s) :
    (∃ accept o, move = .join a accept ∧ table.sessions a = none ∧ table.offers a = some o ∧
        s = accept o) ∨
      ∃ s₀, table.sessions a = some s₀ ∧ move ≠ .leave a ∧ s = used a s₀ move := by
  cases move with
  | stay => exact .inr ⟨s, h, nofun, rfl⟩
  | offer a' o' => exact .inr ⟨s, h, nofun, rfl⟩
  | join a' accept =>
    by_cases ha : a = a'
    · subst ha
      have hor : (table.sessions a).or ((table.offers a).map accept) = some s :=
        (Function.update_self a _ table.sessions).symm.trans h
      cases hsession : table.sessions a with
      | some s₀ =>
        rw [hsession] at hor
        exact .inr ⟨s₀, rfl, nofun, (Option.some.inj hor).symm⟩
      | none =>
        rw [hsession, Option.none_or] at hor
        obtain ⟨o, hoffer, rfl⟩ := Option.map_eq_some_iff.mp hor
        exact .inl ⟨accept, o, rfl, rfl, hoffer, rfl⟩
    · exact .inr ⟨s, (Function.update_of_ne ha _ _).symm.trans h, nofun, rfl⟩
  | use a' f =>
    by_cases ha : a = a'
    · subst ha
      have hmap : (table.sessions a).map f = some s :=
        (Function.update_self a _ table.sessions).symm.trans h
      obtain ⟨s₀, hsession, rfl⟩ := Option.map_eq_some_iff.mp hmap
      exact .inr ⟨s₀, hsession, nofun, (if_pos rfl).symm⟩
    · exact .inr ⟨s, (Function.update_of_ne ha _ _).symm.trans h, nofun,
        (if_neg (Ne.symm ha)).symm⟩
  | leave a' =>
    by_cases ha : a = a'
    · subst ha
      cases (Function.update_self a _ table.sessions).symm.trans h
    · refine .inr ⟨s, (Function.update_of_ne ha _ _).symm.trans h, ?_, rfl⟩
      rintro ⟨⟩
      exact ha rfl

end Apply

/-- An offer is the last one that has been made. -/
theorem exists_offer {moves : List (Move A O S)} {a : A} {o : O}
    (h : (run moves).offers a = some o) : ∃ before behind,
      moves = before ++ .offer a o :: behind ∧ ∀ o', .offer a o' ∉ behind := by
  induction moves using List.reverseRecOn with
  | nil => cases h
  | append_singleton moves move ih =>
    rw [run_concat] at h
    rcases offers_apply h with rfl | ⟨h, hother⟩
    · exact ⟨moves, [], rfl, fun _ => List.not_mem_nil⟩
    · obtain ⟨before, behind, rfl, hlast⟩ := ih h
      refine ⟨before, behind ++ [move], by simp, fun o' hmem => ?_⟩
      rcases List.mem_append.mp hmem with hmem | hmem
      · exact hlast o' hmem
      · exact hother o' (List.mem_singleton.mp hmem).symm

/--
**A session began when its peer, which had none, took its offer up.** Since then the peer has not
left, and the session is what its use has made of it.
-/
theorem exists_join {moves : List (Move A O S)} {a : A} {s : S}
    (h : (run moves).sessions a = some s) : ∃ before accept o behind,
      moves = before ++ .join a accept :: behind ∧ (run before).sessions a = none ∧
        (run before).offers a = some o ∧ .leave a ∉ behind ∧
        s = behind.foldl (used a) (accept o) := by
  induction moves using List.reverseRecOn generalizing s with
  | nil => cases h
  | append_singleton moves move ih =>
    rw [run_concat] at h
    rcases sessions_apply h with ⟨accept, o, rfl, hnone, hoffer, rfl⟩ | ⟨s₀, h₀, hstays, rfl⟩
    · exact ⟨moves, accept, o, [], rfl, hnone, hoffer, List.not_mem_nil, rfl⟩
    · obtain ⟨before, accept, o, behind, rfl, hnone, hoffer, hstayed, rfl⟩ := ih h₀
      refine ⟨before, accept, o, behind ++ [move], by simp, hnone, hoffer, ?_, ?_⟩
      · intro hmem
        rcases List.mem_append.mp hmem with hmem | hmem
        · exact hstayed hmem
        · exact hstays (List.mem_singleton.mp hmem).symm
      · rw [List.foldl_append]
        rfl

end ConnectionTable

end Rakro
