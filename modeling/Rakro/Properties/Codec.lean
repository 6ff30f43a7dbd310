import Rakro.Infra.Simulation
import Rakro.Packet.FrameSet
import Rakro.Packet.Nack
import Rakro.Roundtrip.Unconnected

/-!
# What the codecs are made of

A codec reaches the bytes through `next_byte`, `write_byte` and the check in front of them only.
`Reading` and `Filling` are the methods that are made so. What the primitives keep to, every codec
keeps to: that is an induction over either of them, and no codec has to be looked at again.
-/

namespace Rakro

open Infra

/-- No byte outside of the view is accessed, nor anything else done that the language forbids. -/
def Defined (e : Exn) : Prop := ∀ what, e ≠ .undefined what

/-! ## What an access changes -/

/-- A read moves the cursor forward and changes nothing else. -/
structure ReadFrame (b b' : BinaryBuffer) : Prop where
  index_le : b.index ≤ b'.index
  unchanged : b' = { b with index := b'.index }

/-- A write changes the bytes that the cursor has passed over and no others. -/
structure WriteFrame (b b' : BinaryBuffer) : Prop where
  index_le : b.index ≤ b'.index
  size_eq : b'.size = b.size
  bytes_eq : ∀ n, n < b.index ∨ b'.index ≤ n → b'.bytes[n]? = b.bytes[n]?
  beyond_eq : b'.beyond = b.beyond
  home_eq : b'.home = b.home
  owner_eq : b'.owner = b.owner

instance : IsPreorder BinaryBuffer ReadFrame where
  refl b := ⟨Nat.le_refl _, rfl⟩
  trans a b c h h' := by
    refine ⟨Nat.le_trans h.index_le h'.index_le, ?_⟩
    rw [h'.unchanged, h.unchanged]

instance : IsPreorder BinaryBuffer WriteFrame where
  refl b := ⟨Nat.le_refl _, rfl, fun _ _ => rfl, rfl, rfl, rfl⟩
  trans a b c h h' := by
    have hab := h.index_le
    have hbc := h'.index_le
    refine ⟨Nat.le_trans hab hbc, h'.size_eq.trans h.size_eq, fun n hn => ?_,
      h'.beyond_eq.trans h.beyond_eq, h'.home_eq.trans h.home_eq, h'.owner_eq.trans h.owner_eq⟩
    rw [h'.bytes_eq n (by omega), h.bytes_eq n (by omega)]

/-- A read is a write that changes no byte. -/
theorem ReadFrame.writeFrame {b b' : BinaryBuffer} (h : ReadFrame b b') : WriteFrame b b' := by
  have hle := h.index_le
  rw [h.unchanged] at hle ⊢
  exact ⟨hle, rfl, fun _ _ => rfl, rfl, rfl, rfl⟩

theorem within_boundsCheck (extra : Nat) : Within ReadFrame (boundsCheck extra) :=
  Within.bind Within.get fun _ => Within.ite (Within.throw _) (Within.pure _)

theorem within_nextByte : Within ReadFrame nextByte := by
  refine Within.bind (within_boundsCheck 1) fun _ b => ?_
  have hset : (set (b.skipn 1) : BufM PUnit).run b = .ok ⟨⟩ (b.skipn 1) := rfl
  have hskipped : ReadFrame b (b.skipn 1) := ⟨Nat.le_succ _, rfl⟩
  rw [after_get_bind, after_bind_ok hset]
  cases b.bytes[b.index]? with
  | some byte => exact hskipped
  | none => exact hskipped

theorem within_writeByte (val : UInt8) : Within WriteFrame (writeByte val) := by
  refine Within.bind ((within_boundsCheck 1).mono fun _ _ => ReadFrame.writeFrame) fun _ b => ?_
  rw [after_get_bind]
  split
  · refine ⟨Nat.le_succ _, List.length_set, fun n hn => ?_, rfl, rfl, rfl⟩
    have hn : n < b.index ∨ b.index + 1 ≤ n := hn
    exact List.getElem?_set_ne (by omega)
  · exact refl b

/-- What `m` returns, with the cursor put back. -/
abbrev lookAhead {α : Type} (m : BufM α) : BufM α := do
  let currentIdx := (← get).index
  let returnVal ← m
  modify fun b => b.goTo currentIdx
  pure returnVal

section LookAhead

variable {α : Type} {m : BufM α} {a : α} {b b' : BinaryBuffer}

/-- With what only reads, the buffer is what it has been. -/
theorem run_lookAhead_ok (h : m.run b = .ok a b') (hframe : ReadFrame b b') :
    (lookAhead m).run b = .ok a b := by
  have hback : b'.goTo b.index = b := by
    rw [hframe.unchanged]
    rfl
  have hmodify : (modify fun b' => b'.goTo b.index : BufM PUnit).run b' = .ok ⟨⟩ b := by
    rw [EStateM.run_modify, hback]
  unfold lookAhead
  rw [run_get_bind, run_bind_of_ok h, run_bind_of_ok hmodify]
  rfl

/-- A reader that raises leaves the cursor where it got to. -/
theorem run_lookAhead_error {e : Exn} (h : m.run b = .error e b') :
    (lookAhead m).run b = .error e b' := by
  unfold lookAhead
  rw [run_get_bind, run_bind_of_error h]

theorem within_lookAhead (hm : Within ReadFrame m) : Within ReadFrame (lookAhead m) := by
  intro b
  have hframe := hm b
  cases h : m.run b with
  | ok a b' =>
    rw [after_of_ok h] at hframe
    rw [after_of_ok (run_lookAhead_ok h hframe)]
    exact refl b
  | error e b' =>
    rw [after_of_error h] at hframe
    rw [after_of_error (run_lookAhead_error h)]
    exact hframe

end LookAhead

/-! ## Two kinds of methods -/

/-- What only reads. It may look at the view and the cursor, but not at the memory around. -/
inductive Reading : {α : Type} → BufM α → Prop
  | pure {α : Type} (a : α) : Reading (pure a)
  | throw {α : Type} {e : Exn} : Defined e → Reading (throw e : BufM α)
  | bind {α β : Type} {m : BufM α} {f : α → BufM β} :
      Reading m → (∀ a, Reading (f a)) → Reading (m >>= f)
  | check (extra : Nat) : Reading (boundsCheck extra)
  | nextByte : Reading nextByte
  | ahead {α : Type} {m : BufM α} : Reading m → Reading (lookAhead m)
  | view {α : Type} {f : BinaryBuffer → BufM α} :
      (∀ b b' : BinaryBuffer, b.bytes = b'.bytes → b.index = b'.index → f b = f b') →
      (∀ b, Reading (f b)) → Reading (get >>= f)

/-- What only writes: one thing after the other, whatever is there already. -/
inductive Filling : BufM PUnit → Prop
  | pure : Filling (pure ⟨⟩)
  | throw {e : Exn} : Defined e → Filling (throw e)
  | bind {m n : BufM PUnit} : Filling m → Filling n → Filling (m >>= fun _ => n)
  | check (extra : Nat) : Filling (boundsCheck extra)
  | writeByte (val : UInt8) : Filling (writeByte val)

/-- A reader moves the cursor only. -/
theorem Reading.within {α : Type} {m : BufM α} (h : Reading m) : Within ReadFrame m := by
  induction h with
  | pure a => exact Within.pure a
  | throw _ => exact Within.throw _
  | bind _ _ ihm ihf => exact Within.bind ihm ihf
  | check extra => exact within_boundsCheck extra
  | nextByte => exact within_nextByte
  | ahead _ ih => exact within_lookAhead ih
  | view _ _ ih => exact Within.bind Within.get ih

/-- A writer keeps the length of the view. -/
theorem Filling.within {m : BufM PUnit} (h : Filling m) : Within WriteFrame m := by
  induction h with
  | pure => exact Within.pure _
  | throw _ => exact Within.throw _
  | bind _ _ ihm ihn => exact Within.bind ihm fun _ => ihn
  | check extra => exact (within_boundsCheck extra).mono fun _ _ => ReadFrame.writeFrame
  | writeByte val => exact within_writeByte val

/-! ## Two buffers side by side -/

/-- Two buffers with the same view and cursor, wherever their memory lies. -/
structure SameView (b c : BinaryBuffer) : Prop where
  bytes_eq : c.bytes = b.bytes
  index_eq : c.index = b.index

/-- Two buffers of one size into which the same has been written. -/
structure SameWritten (b c : BinaryBuffer) : Prop where
  size_eq : c.size = b.size
  index_eq : c.index = b.index
  written : c.consumedSlice = b.consumedSlice

section SameView

variable {b c : BinaryBuffer}

theorem SameView.goTo (h : SameView b c) (newIndex : Nat) :
    SameView (b.goTo newIndex) (c.goTo newIndex) := ⟨h.bytes_eq, rfl⟩

theorem SameView.skipn (h : SameView b c) (count : Nat) :
    SameView (b.skipn count) (c.skipn count) := ⟨h.bytes_eq, congrArg (· + count) h.index_eq⟩

theorem SameView.size_eq (h : SameView b c) : c.size = b.size := congrArg List.length h.bytes_eq

theorem SameView.remaining_eq (h : SameView b c) : c.remaining = b.remaining := by
  unfold BinaryBuffer.remaining
  rw [h.size_eq, h.index_eq]

theorem SameView.remainingSlice_eq (h : SameView b c) : c.remainingSlice = b.remainingSlice := by
  unfold BinaryBuffer.remainingSlice
  rw [h.bytes_eq, h.index_eq]

end SameView

theorem simulates_boundsCheck {R : BinaryBuffer → BinaryBuffer → Prop}
    (hsize : ∀ b c, R b c → c.size = b.size) (hindex : ∀ b c, R b c → c.index = b.index)
    (extra : Nat) : Simulates R (boundsCheck extra) (boundsCheck extra) fun _ _ => R := by
  refine Simulates.get_bind fun b c h => Simulates.ite ?_ (fun _ => Simulates.throw _) fun _ =>
    Simulates.pure fun _ _ h => h
  rw [hsize b c h, hindex b c h]

/-- **What is read depends on the view and the cursor only.** -/
theorem Reading.simulates {α : Type} {m : BufM α} (h : Reading m) :
    Simulates SameView m m fun a a' b c => a = a' ∧ SameView b c := by
  induction h with
  | pure a => exact Simulates.pure fun _ _ h => ⟨rfl, h⟩
  | throw _ => exact Simulates.throw _
  | bind _ _ ihm ihf =>
    refine Simulates.bind ihm fun a a' => Simulates.of_and ?_
    rintro rfl
    exact ihf a
  | check extra =>
    exact (simulates_boundsCheck (fun _ _ h => h.size_eq) (fun _ _ h => h.index_eq) extra).mono
      fun _ _ _ _ h => ⟨rfl, h⟩
  | nextByte =>
    refine Simulates.bind (simulates_boundsCheck (fun _ _ h => h.size_eq)
      (fun _ _ h => h.index_eq) 1) fun _ _ => Simulates.get_bind fun b c h => ?_
    rw [h.bytes_eq, h.index_eq]
    refine Simulates.bind (Q := fun _ _ => SameView) (Simulates.set (h.skipn 1)) fun _ _ => ?_
    cases b.bytes[b.index]? with
    | some byte => exact Simulates.pure fun _ _ h => ⟨rfl, h⟩
    | none => exact Simulates.throw _
  | ahead _ ih =>
    refine Simulates.get_bind fun b c h => Simulates.bind ih fun a a' => ?_
    refine Simulates.of_and ?_
    rintro rfl
    rw [h.index_eq]
    exact Simulates.bind (Simulates.modify fun _ _ h => h.goTo _) fun _ _ =>
      Simulates.pure fun _ _ h => ⟨rfl, h⟩
  | view hf _ ih =>
    refine Simulates.get_bind fun b c h => ?_
    rw [hf c b h.bytes_eq h.index_eq]
    exact ih b

/-- A byte that is set behind a part makes it longer by that byte. -/
theorem take_set_succ {bytes : Bytes} {index : Nat} (h : index < bytes.length) (val : UInt8) :
    (bytes.set index val).take (index + 1) = bytes.take index ++ [val] := by
  rw [List.set_eq_take_append_cons_drop, if_pos h, List.take_append, List.length_take,
    Nat.min_eq_left (Nat.le_of_lt h), Nat.add_sub_cancel_left, List.take_take,
    Nat.min_eq_right (Nat.le_succ _)]
  rfl

/-- **What is written is the same whatever has been there before.** -/
theorem Filling.simulates {m : BufM PUnit} (h : Filling m) :
    Simulates SameWritten m m fun _ _ => SameWritten := by
  have hcheck : ∀ extra,
      Simulates SameWritten (boundsCheck extra) (boundsCheck extra) fun _ _ => SameWritten :=
    simulates_boundsCheck (fun _ _ h => h.size_eq) fun _ _ h => h.index_eq
  induction h with
  | pure => exact Simulates.pure fun _ _ h => h
  | throw _ => exact Simulates.throw _
  | bind _ _ ihm ihn => exact Simulates.bind ihm fun _ _ => ihn
  | check extra => exact hcheck extra
  | writeByte val =>
    refine Simulates.bind (hcheck 1) fun _ _ => Simulates.get_bind fun b c h => ?_
    refine Simulates.ite ?_ (fun hlt => ?_) fun _ => Simulates.throw _
    · rw [h.size_eq, h.index_eq]
    · have hlt' : c.index < c.size := by rwa [h.size_eq, h.index_eq]
      refine Simulates.modify fun _ _ _ => ⟨?_, congrArg (· + 1) h.index_eq, ?_⟩
      · exact List.length_set.trans (h.size_eq.trans List.length_set.symm)
      · exact (take_set_succ hlt' val).trans
          ((congrArg (· ++ [val]) h.written).trans (take_set_succ hlt val).symm)

/-! ## The codecs -/

theorem defined_logicError (what : String) : Defined (.logicError what) := by
  intro _ h
  cases h

/-! ## Typed access -/

/-- A type whose codec is made so. -/
class Codec (T : Type) [BinaryData T] : Prop where
  fills : ∀ val : T, Filling (BinaryData.write val)
  reads : Reading (BinaryData.read : BufM T)

section Typed

variable {T : Type} [BinaryData T] [Codec T]

variable (T) in
/-- A typed read reads. -/
theorem reading_readNext : Reading (readNext T) := .bind (.check _) fun _ => Codec.reads

variable (T) in
theorem reading_readNextPeak : Reading (readNextPeak T) :=
  .bind (.check _) fun _ => .ahead Codec.reads

theorem filling_write (val : T) : Filling (write val) := .bind (.check _) (Codec.fills val)

end Typed

section Combinators

variable {α : Type}

theorem Reading.map {β : Type} {m : BufM α} (hm : Reading m) (f : α → β) :
    Reading (do return f (← m)) := .bind hm fun _ => .pure _

theorem Reading.readIf {condition : Bool} {m : BufM α} (hm : Reading m) :
    Reading (readIf condition m) := by
  unfold Rakro.readIf
  split
  · exact hm.map some
  · exact .pure none

/-- Dropping what is read is reading. -/
theorem Reading.discard {method : BufM α} (hm : Reading method) :
    ∀ count, Reading (discard method count)
  | 0 => .pure _
  | count + 1 => .bind hm fun _ => Reading.discard hm count

theorem Filling.forM {f : α → BufM PUnit} (hf : ∀ a, Filling (f a)) :
    ∀ l : List α, Filling (l.forM f)
  | [] => .pure
  | a :: l => .bind (hf a) (Filling.forM hf l)

theorem Filling.writeIfSome {f : α → BufM PUnit} (hf : ∀ val, Filling (f val)) :
    ∀ val, Filling (writeIfSome f val)
  | some val => hf val
  | none => .pure

end Combinators

/-! ## The primitive codecs -/

/-- The loop of the integer reader takes a byte at a time. -/
theorem reading_orBytes {w : Nat} :
    ∀ (left x : Nat) (value : BitVec w), Reading (orBytes left x value)
  | 0, _, _ => .pure _
  | left + 1, x, _ => .bind .nextByte fun _ => reading_orBytes left (x + 1) _

theorem reading_readIntegral (n : Nat) : Reading (readIntegral n) := (reading_orBytes n 0 0).map _

theorem filling_writeIntegral (n : Nat) (val : BitVec (8 * n)) : Filling (writeIntegral n val) :=
  .forM .writeByte _

instance : Codec UInt8 := ⟨fun _ => filling_writeIntegral 1 _, (reading_readIntegral 1).map _⟩

instance : Codec UInt16 := ⟨fun _ => filling_writeIntegral 2 _, (reading_readIntegral 2).map _⟩

instance : Codec UInt32 := ⟨fun _ => filling_writeIntegral 4 _, (reading_readIntegral 4).map _⟩

instance : Codec UInt64 := ⟨fun _ => filling_writeIntegral 8 _, (reading_readIntegral 8).map _⟩

instance : Codec Int8 := ⟨fun _ => filling_writeIntegral 1 _, (reading_readIntegral 1).map _⟩

instance : Codec Int16 := ⟨fun _ => filling_writeIntegral 2 _, (reading_readIntegral 2).map _⟩

instance : Codec Int32 := ⟨fun _ => filling_writeIntegral 4 _, (reading_readIntegral 4).map _⟩

instance : Codec Int64 := ⟨fun _ => filling_writeIntegral 8 _, (reading_readIntegral 8).map _⟩

instance : Codec CChar := ⟨fun _ => filling_writeIntegral 1 _, (reading_readIntegral 1).map _⟩

instance : Codec Bool := ⟨fun _ => .writeByte _, Reading.nextByte.map _⟩

instance : Codec UInt24 := ⟨fun _ => .forM .writeByte _, (reading_orBytes 3 0 0).map _⟩

theorem reading_readChars : ∀ cap, Reading (readChars cap)
  | 0 => .pure _
  | cap + 1 => .bind (reading_readNext CChar) fun _ => (reading_readChars cap).map _

instance : Codec StdString where
  fills _ := .bind (filling_write _) (.forM .writeByte _)
  reads := .bind (reading_readNext UInt16) fun _ => (reading_readChars _).map _

/-! ## Addresses and acknowledgements -/

/-- Seven bytes are enough for the buffer of its own that a slice is decoded through. -/
theorem fromBytes_returns (address : Bytes) :
    ∃ rakAddress, RakAddress.fromBytes address = .ok rakAddress := by
  by_cases hlength : address.length < 7
  · exact ⟨none, if_pos hlength⟩
  · obtain ⟨tag, rest, rfl⟩ := List.exists_cons_of_length_pos (l := address) (by omega)
    rw [List.length_cons] at hlength
    by_cases htag : tag = 4
    · obtain ⟨ip, rest, hip, rfl⟩ := exists_split (n := 4) (r := rest) (by omega)
      rw [List.length_append] at hlength
      obtain ⟨port, rest, hport, rfl⟩ := exists_split (n := 2) (r := rest) (by omega)
      subst htag
      have h := fromBytes_eq hip hport rest
      rw [List.cons_append, List.append_assoc] at h
      exact ⟨_, h⟩
    · have hrun : RakAddress.readTagged.run (.ofRented { memory := tag :: rest }) =
          .ok none (BinaryBuffer.between (.ofRented { memory := tag :: rest }) [tag] rest) := by
        refine (run_bind_of_ok (consumes_nextByte tag
          (.ofRented { memory := tag :: rest }) [] rest)).trans ?_
        rw [if_pos htag]
        rfl
      refine ⟨none, ?_⟩
      unfold RakAddress.fromBytes
      rw [if_neg (by rw [List.length_cons]; exact hlength), hrun]

instance : Codec RakAddress where
  fills _ := .bind (filling_write _) (.bind (filling_write _) (filling_write _))
  reads := by
    refine .bind (reading_readNextPeak UInt8) fun _ => ?_
    split
    · exact .throw fun _ h => by cases h
    · refine .view (fun b b' hbytes hindex => ?_) fun b => ?_
      · unfold BinaryBuffer.remainingSlice
        rw [hbytes, hindex]
      · obtain ⟨address, h⟩ := fromBytes_returns b.remainingSlice
        rw [h]
        cases address with
        | some address => exact .pure address
        | none => exact .throw fun _ h => by cases h

theorem filling_writeRecord : ∀ record, Filling (Ack.writeRecord record)
  | .multi _ => .bind (filling_write _) (.bind (filling_write _) (filling_write _))
  | .single _ => filling_write _

theorem reading_readRanges : ∀ length, Reading (Ack.readRanges length)
  | 0 => .pure _
  | length + 1 => .bind (reading_readNext UInt24) fun _ => .bind (reading_readNext UInt24) fun _ =>
      (reading_readRanges length).map _

instance : Codec Ack where
  fills _ := .bind (filling_write _) (.bind (filling_write _) (.forM filling_writeRecord _))
  reads := by
    refine .bind (reading_readNextPeak UInt8) fun _ => .bind (reading_readNext UInt8) fun _ => ?_
    split
    · exact .bind (reading_readNext UInt16) fun _ => (reading_readRanges _).map _
    · exact (reading_readNext UInt24).map _

theorem reading_readRecord : Reading Nack.readRecord := by
  refine .bind (reading_readNext Bool) fun _ => ?_
  split
  · exact .bind (reading_readNext UInt24) fun _ => (reading_readNext UInt24).map _
  · exact (reading_readNext UInt24).map _

theorem reading_readRecords : ∀ length, Reading (Nack.readRecords length)
  | 0 => .pure _
  | length + 1 => .bind reading_readRecord fun _ => (reading_readRecords length).map _

instance : Codec Nack where
  fills _ := .bind (filling_write _) (.bind (filling_write _) (.forM filling_writeRecord _))
  reads := .bind (reading_readNext UInt16) fun _ => (reading_readRecords _).map _

/-! ## Frames -/

instance : Codec FrameHeader where
  fills _ := .bind (filling_write _) (filling_write _)
  reads := .bind (reading_readNext UInt8) fun _ => (reading_readNext UInt24).map _

theorem filling_writeOrderInformation (info : OrderInformation) :
    Filling (writeOrderInformation info) := .bind (filling_write _) (filling_write _)

theorem reading_readOrderInformation : Reading readOrderInformation :=
  .bind (reading_readNext UInt24) fun _ => Reading.nextByte.map _

theorem filling_writeFragmentInformation (info : FragmentInformation) :
    Filling (writeFragmentInformation info) :=
  .bind (filling_write _) (.bind (filling_write _) (filling_write _))

theorem reading_readFragmentInformation : Reading readFragmentInformation :=
  .bind (reading_readNext UInt32) fun _ => .bind (reading_readNext UInt16) fun _ =>
    (reading_readNext UInt32).map _

instance : Codec FrameInfo where
  fills _ := by
    refine .bind (filling_write _) (.bind (filling_write _) ?_)
    refine .bind (.writeIfSome filling_write _) (.bind (.writeIfSome filling_write _) ?_)
    exact .bind (.writeIfSome filling_writeOrderInformation _)
      (.writeIfSome filling_writeFragmentInformation _)
  reads := by
    refine .bind .nextByte fun _ => .bind (reading_readNext UInt16) fun _ => ?_
    refine .bind (reading_readNext UInt24).readIf fun _ => ?_
    refine .bind (reading_readNext UInt24).readIf fun _ => ?_
    exact .bind reading_readOrderInformation.readIf fun _ =>
      reading_readFragmentInformation.readIf.map _

/-! ## Handshake and connected packets -/

instance : Codec MagicType where
  fills _ := .forM .writeByte _
  reads := .bind (Reading.nextByte.discard 16) fun _ => .pure _

instance : Codec UnconnectedPing where
  fills _ := .bind (filling_write _) (.bind (filling_write _) (filling_write _))
  reads := .bind (reading_readNext UInt64) fun _ => .bind (reading_readNext MagicType) fun _ =>
    (reading_readNext UInt64).map _

instance : Codec UnconnectedPong where
  fills _ := .bind (filling_write _) (.bind (filling_write _) (.bind (filling_write _)
    (.bind (filling_write _) (filling_write _))))
  reads := .throw (defined_logicError _)

instance : Codec OpenConnectionRequest1 where
  fills _ := .throw (defined_logicError _)
  reads := by
    refine .bind (reading_readNext MagicType) fun _ => .bind (reading_readNext UInt8) fun _ => ?_
    refine .view (fun b b' hbytes hindex => ?_) fun b => ?_
    · unfold BinaryBuffer.remaining BinaryBuffer.size
      rw [hbytes, hindex]
    · exact .bind ((reading_readNext UInt8).discard _) fun _ => .pure _

instance : Codec OpenConnectionReply1 where
  fills _ := .bind (filling_write _) (.bind (filling_write _) (.bind (filling_write _)
    (.bind (filling_write _) (filling_write _))))
  reads := .throw (defined_logicError _)

instance : Codec IncompatibleProtocol where
  fills _ := .bind (filling_write _) (.bind (filling_write _) (.bind (filling_write _)
    (filling_write _)))
  reads := .throw (defined_logicError _)

instance : Codec OpenConnectionRequest2 where
  fills _ := .throw (defined_logicError _)
  reads := .bind (reading_readNext MagicType) fun _ => .bind (reading_readNext RakAddress) fun _ =>
    .bind (reading_readNext UInt16) fun _ => (reading_readNext UInt64).map _

instance : Codec OpenConnectionReply2 where
  fills _ := .bind (filling_write _) (.bind (filling_write _) (.bind (filling_write _)
    (.bind (filling_write _) (.bind (filling_write _) (filling_write _)))))
  reads := .throw (defined_logicError _)

instance : Codec ConnectionRequest where
  fills _ := .throw (defined_logicError _)
  reads := .bind (reading_readNext UInt64) fun _ => .bind (reading_readNext UInt64) fun _ =>
    (reading_readNext Bool).map _

instance : Codec ConnectionRequestAccepted where
  fills _ := .bind (filling_write _) (.bind (filling_write _) (.bind (filling_write _)
    (.bind (.forM filling_write _) (.bind (filling_write _) (filling_write _)))))
  reads := .throw (defined_logicError _)

instance : Codec ConnectedPing where
  fills _ := .throw (defined_logicError _)
  reads := (reading_readNext UInt64).map _

instance : Codec ConnectedPong where
  fills _ := .bind (filling_write _) (filling_write _)
  reads := .throw (defined_logicError _)

end Rakro
