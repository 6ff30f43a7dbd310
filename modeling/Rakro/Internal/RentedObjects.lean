import Rakro.Internal.BufferCompany
import Rakro.Infra.Program
import Mathlib.Data.List.AList

/-!
# The rented buffers of one thread

A `RentedBuffer` is an object that a thread names: it is made by renting or by moving from another
one, it takes over what another one has, and its lifetime ends. The objects are kept by name, and an
operation on a name that is not there, or that is taken, is none that the language allows.
-/

namespace Rakro

open Infra

/-- A company and the rented buffers that are alive. -/
structure Pool where
  company : BufferCompany
  objects : AList fun _ : Nat => RentedBuffer := ∅

/-- A program on the pool and its `RentedBuffer` objects. -/
abbrev PoolM := EStateM Exn Pool

/-- A new company and no object. -/
def Pool.new (bufferCount bufferSize blockMaxCount : Nat) : Pool where
  company := .new bufferCount bufferSize blockMaxCount

/-- What a thread does to its rented buffers. -/
inductive BufferOp
  /-- `RentedBuffer x = company.rent();` -/
  | rent (x : Nat)
  /-- `RentedBuffer x = std::move(y);` -/
  | moveConstruct (x y : Nat)
  /-- `x = std::move(y);` -/
  | moveAssign (x y : Nat)
  /-- The lifetime of `x` ends. -/
  | destroy (x : Nat)
  deriving DecidableEq, Repr

namespace BufferOp

/-- An object is made under a name that another one has. -/
def nameTaken : Exn := .undefined "the name is taken"

/-- An object is used that does not exist. -/
def noSuchObject : Exn := .undefined "no such object"

/--
`owner_free` of `this`, and what `other` has is exchanged for nothing. The object `this` is at `x`
then, the object `other` at `y`.
-/
def takeOver (x y : Nat) (this other : RentedBuffer) : PoolM PUnit :=
  modify fun pool =>
    { company := pool.company.ownerFree this
      objects := (pool.objects.insert y {}).insert x other }

/-- What an operation does to the pool and the objects. -/
def run : BufferOp → PoolM PUnit
  | rent x => do
    let pool ← get
    if x ∈ pool.objects then throw nameTaken
    else
      match pool.company.rent with
      | .ok (buffer, company) => set ({ company, objects := pool.objects.insert x buffer } : Pool)
      | .error e => throw e
  | moveConstruct x y => do
    let pool ← get
    if x ∈ pool.objects then throw nameTaken
    else
      match pool.objects.lookup y with
      | some other => takeOver x y {} other
      | none => throw noSuchObject
  | moveAssign x y => do
    let pool ← get
    match pool.objects.lookup x, pool.objects.lookup y with
    | some this, some other => if x = y then pure ⟨⟩ else takeOver x y this other
    | _, _ => throw noSuchObject
  | destroy x => do
    let pool ← get
    match pool.objects.lookup x with
    | some this =>
      set ({ company := pool.company.destroy this, objects := pool.objects.erase x } : Pool)
    | none => throw noSuchObject

end BufferOp

end Rakro
