import Rakro.Internal.BufferCompany
import Rakro.Infra.Transition
import Mathlib.Data.Fintype.Basic
import Mathlib.Logic.Function.Basic

/-!
# Threads that rent from one pool

`BufferCompany::rent` in the pieces between which other threads act: the scan of the blocks, the size
test, `init_block`, the second scan, and `BufferBlock::rent` with its `try_rent` and its wait. What a
lock protects is one step, and so is the size test, which takes none.

A buffer that has been rented may be handed to another thread, so any thread outside of `rent` may
return it.
-/

namespace Rakro

open Infra

/-- Where a thread is. -/
inductive Phase
  /-- It is not in `rent`. -/
  | outside
  /-- Its first scan has found nothing. -/
  | scanned
  /-- The size test has found room for another block. -/
  | making
  /-- `init_block` has returned. -/
  | rescanning
  /-- It is in the loop of the block's `rent`, in front of `try_rent`. -/
  | trying (block : Nat)
  /-- It looks at the predicate of the wait. -/
  | checking (block : Nat)
  /-- It waits until it is notified. -/
  | asleep (block : Nat)
  deriving DecidableEq, Repr

/-- The pool and the threads that use it. -/
structure Threads (T : Type) where
  company : BufferCompany
  phase : T → Phase := fun _ => .outside
  /-- The buffers that have been rented and not returned. -/
  rented : List BufferId := []
  /-- `value()` has been called on an empty optional, in a function that is `noexcept`. -/
  terminated : Bool := false

/-- A new company, with every thread at rest. -/
def Threads.new (T : Type) (bufferCount bufferSize blockMaxCount : Nat) : Threads T where
  company := .new bufferCount bufferSize blockMaxCount

/--
What a thread does next. Each is one stretch of the code between two points where another thread may
come in.
-/
inductive ThreadStep (T : Type)
  /-- `rent` is called, and `try_all` scans the blocks. -/
  | scan (t : T)
  /-- `blocks.size() == block_max_count` -/
  | test (t : T)
  /-- `init_block()` -/
  | initBlock (t : T)
  /-- `try_all().value()` -/
  | rescan (t : T)
  /-- `try_rent()` of the block that `back()` was -/
  | tryRent (t : T) (block : Nat)
  /-- The wait of that block looks at its predicate. -/
  | check (t : T) (block : Nat)
  /-- `add_free(buffer)`. Of the threads that wait for the block, `notify_one` wakes one. -/
  | giveBack (t : T) (buffer : BufferId) (woken : Option T)
  deriving DecidableEq

/-- The thread that takes the step. -/
def ThreadStep.actor {T : Type} : ThreadStep T → T
  | scan t | test t | initBlock t | rescan t | tryRent t _ | check t _ | giveBack t _ _ => t

/-- `try_rent` of the block `id`. -/
def BufferCompany.tryRentAt (id : Nat) :
    List BufferBlock → Option (BufferId × List BufferBlock)
  | [] => none
  | block :: blocks =>
    if block.id = id then
      match block.tryRent with
      | some (buffer, block') => some (buffer, block' :: blocks)
      | none => none
    else
      match tryRentAt id blocks with
      | some (buffer, blocks') => some (buffer, block :: blocks')
      | none => none

/-- `free_buffers.size() != 0` of the block `id`. -/
def BufferCompany.hasFree (company : BufferCompany) (id : Nat) : Bool :=
  company.blocks.any fun block => block.id = id && !block.freeBuffers.isEmpty

namespace Threads

variable {T : Type} [DecidableEq T]

/-- `t` goes to another phase. -/
def moveTo (s : Threads T) (t : T) (phase : Phase) : Threads T :=
  { s with phase := Function.update s.phase t phase }

/-- A buffer has been taken from the blocks, and `rent` returns. -/
def take (s : Threads T) (t : T) (buffer : BufferId) (blocks : List BufferBlock) : Threads T :=
  { s with
    company := { s.company with blocks := blocks }
    phase := Function.update s.phase t .outside
    rented := buffer :: s.rented }

/-- The thread that `notify_one` picked, if any, checks its predicate again. -/
def wake (s : Threads T) (block : Nat) : Option T → Threads T
  | some u => s.moveTo u (.checking block)
  | none => s

/-- The state behind a step. -/
def next (s : Threads T) : ThreadStep T → Threads T
  | .scan t =>
    match BufferCompany.tryAll s.company.blocks with
    | some (buffer, blocks) => s.take t buffer blocks
    | none => s.moveTo t .scanned
  | .test t =>
    if s.company.blocks.length = s.company.blockMaxCount then
      match s.company.blocks.getLast? with
      | some block => s.moveTo t (.trying block.id)
      -- `back()` of an empty list
      | none => { s with terminated := true }
    else s.moveTo t .making
  | .initBlock t => { s with company := s.company.initBlock }.moveTo t .rescanning
  | .rescan t =>
    match BufferCompany.tryAll s.company.blocks with
    | some (buffer, blocks) => s.take t buffer blocks
    | none => { s with terminated := true }
  | .tryRent t block =>
    match BufferCompany.tryRentAt block s.company.blocks with
    | some (buffer, blocks) => s.take t buffer blocks
    | none => s.moveTo t (.checking block)
  | .check t block =>
    if s.company.hasFree block then s.moveTo t (.trying block) else s.moveTo t (.asleep block)
  | .giveBack _ buffer woken =>
    { s with
      company := s.company.addFree buffer.block buffer
      rented := s.rented.erase buffer }.wake buffer.block woken

/-- The step comes next in its thread. Once the process has been terminated, none does. -/
def Enabled (s : Threads T) (step : ThreadStep T) : Prop :=
  s.terminated = false ∧
    match step with
    | .scan t => s.phase t = .outside
    | .test t => s.phase t = .scanned
    | .initBlock t => s.phase t = .making
    | .rescan t => s.phase t = .rescanning
    | .tryRent t block => s.phase t = .trying block
    | .check t block => s.phase t = .checking block
    | .giveBack t buffer (some u) =>
      s.phase t = .outside ∧ buffer ∈ s.rented ∧ s.phase u = .asleep buffer.block
    | .giveBack t buffer none =>
      s.phase t = .outside ∧ buffer ∈ s.rented ∧ ∀ u, s.phase u ≠ .asleep buffer.block

instance [Fintype T] (s : Threads T) : (step : ThreadStep T) → Decidable (s.Enabled step)
  | .scan _ | .test _ | .initBlock _ | .rescan _ | .tryRent _ _ | .check _ _ => instDecidableAnd
  | .giveBack _ _ (some _) | .giveBack _ _ none => instDecidableAnd

end Threads

/-- What the threads `T` do, in every order that the locks allow. -/
def rentSystem (T : Type) [DecidableEq T] : TransitionSystem (Threads T) (ThreadStep T) where
  enabled := Threads.Enabled
  next := Threads.next

instance (T : Type) [DecidableEq T] [Fintype T] (s : Threads T) (step : ThreadStep T) :
    Decidable ((rentSystem T).enabled s step) := inferInstanceAs (Decidable (s.Enabled step))

end Rakro
