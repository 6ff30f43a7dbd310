import Rakro.Properties.ServerStep

/-!
# The handshake

A first request puts its address on the way to connect whatever version it names: the branch that
refuses the version runs into the same end. So the version only protects the server from addresses
that never send a second request, or that have named the right version once.
-/

namespace Rakro

open Infra

/-- A server as it is when its listener comes to the loop. -/
def ServerWorld.Started (w : ServerWorld) : Prop :=
  ∃ w₀ : ServerWorld, w₀.this.IsFresh ∧ RakServer.start.run w₀ = .ok ⟨⟩ w

/-- A server that has just started has no address between its requests. -/
theorem ServerWorld.Started.mid {w : ServerWorld} (h : w.Started) :
    w.this.midConnectionClients = ∅ := by
  obtain ⟨w₀, hfresh, hrun⟩ := h
  cases hrun
  exact congrArg RakServer.midConnectionClients hfresh

theorem ServerWorld.Started.connected {w : ServerWorld} (h : w.Started) :
    w.this.router.connectedClients = ∅ := by
  obtain ⟨w₀, hfresh, hrun⟩ := h
  cases hrun
  exact congrArg (fun server => server.router.connectedClients) hfresh

/-! ## Who is on the way -/

/-- The addresses on their way are those that have sent a first request. -/
structure Progress (start : ServerWorld) (l : List ServerStep) (w : ServerWorld) : Prop where
  protocolVersion : w.this.protocolVersion = start.this.protocolVersion
  bufferSize : w.host.company.bufferSize = start.host.company.bufferSize
  mid : ∀ address, address ∈ w.this.midConnectionClients ↔
    ∃ step ∈ l, ∃ version, step.RequestsFirst start.host.company.bufferSize version address

section Runs

variable {start w : ServerWorld} {l steps : List ServerStep}

/-- **After every run, the addresses on their way are those that have sent a first request.** -/
theorem progress_of_reaches (hstart : start.Started) (h : Reaches ServerStep.run start l w) :
    Progress start l w := by
  induction h with
  | nil =>
    refine ⟨rfl, rfl, fun address => ?_⟩
    rw [hstart.mid]
    exact iff_of_false (AList.notMem_empty address) (by simp)
  | snoc _ hrun ih =>
    have heffect := step_effect hrun
    refine ⟨heffect.protocolVersion.trans ih.protocolVersion,
      heffect.bufferSize.trans ih.bufferSize, fun address => ?_⟩
    rw [heffect.mid address, ih.mid address, ih.bufferSize]
    simp only [List.mem_append, List.mem_singleton, or_and_right, exists_or, exists_eq_left]

/-- The calls of `l` bring a first request of the version `version` and behind it a second one. -/
def ShookHands (size : Nat) (version : UInt8) (address : IPV4Addr) (l : List ServerStep) : Prop :=
  ∃ l₁ first l₂ second l₃, l = l₁ ++ first :: (l₂ ++ second :: l₃) ∧
    first.RequestsFirst size version address ∧ second.RequestsSecond size address

/--
Whenever an address is connected, it has sent a first request of the version of the server and a
second request after it.
-/
def HandshakeSafe (start : ServerWorld) (steps : List ServerStep) : Prop :=
  ∀ l w, l <+: steps → Reaches ServerStep.run start l w →
    ∀ address ∈ w.this.router.connectedClients,
      ShookHands start.host.company.bufferSize start.this.protocolVersion address l

/--
Whenever a second request comes from an address that has sent a first request, one of those it has
sent was of the version of the server.
-/
def VersionsMatch (start : ServerWorld) (steps : List ServerStep) : Prop :=
  ∀ l step w address, l ++ [step] <+: steps → Reaches ServerStep.run start (l ++ [step]) w →
    step.RequestsSecond start.host.company.bufferSize address →
    (∃ first ∈ l, ∃ version,
      first.RequestsFirst start.host.company.bufferSize version address) →
    ∃ first ∈ l,
      first.RequestsFirst start.host.company.bufferSize start.this.protocolVersion address

theorem ShookHands.concat {size : Nat} {version : UInt8} {address : IPV4Addr}
    (h : ShookHands size version address l) (step : ServerStep) :
    ShookHands size version address (l ++ [step]) := by
  obtain ⟨l₁, first, l₂, second, l₃, rfl, hfirst, hsecond⟩ := h
  exact ⟨l₁, first, l₂, second, l₃ ++ [step], by simp, hfirst, hsecond⟩

/-- The last call may be the second request. -/
theorem ShookHands.of_mem {size : Nat} {version : UInt8} {address : IPV4Addr}
    {first step : ServerStep} (hmem : first ∈ l) (hfirst : first.RequestsFirst size version address)
    (hsecond : step.RequestsSecond size address) :
    ShookHands size version address (l ++ [step]) := by
  obtain ⟨l₁, l₂, rfl⟩ := List.append_of_mem hmem
  exact ⟨l₁, first, l₂, step, [], by simp, hfirst, hsecond⟩

/-- In front of the last call there is the first request. -/
theorem ShookHands.mem_of_concat {size : Nat} {version : UInt8} {address : IPV4Addr}
    {step : ServerStep} (h : ShookHands size version address (l ++ [step])) :
    ∃ first ∈ l, first.RequestsFirst size version address := by
  obtain ⟨l₁, first, l₂, second, l₃, heq, hfirst, -⟩ := h
  refine ⟨first, ?_, hfirst⟩
  have hinit := congrArg List.dropLast heq
  rw [List.dropLast_concat] at hinit
  rw [hinit, List.dropLast_append_of_ne_nil (List.cons_ne_nil _ _)]
  refine List.mem_append_right _ ?_
  rw [List.dropLast_cons_of_ne_nil (by simp)]
  exact List.mem_cons_self

/--
**Only addresses that have named the version of the server come to be connected exactly when no
other address goes on to a second request.**
-/
theorem handshakeSafe_iff (hstart : start.Started) :
    HandshakeSafe start steps ↔ VersionsMatch start steps := by
  constructor
  · intro hsafe l step w address hl hreach hsecond hfirst
    obtain ⟨w', hreach', hrun⟩ := hreach.of_concat
    have hprogress := progress_of_reaches hstart hreach'
    -- the address is on its way, whatever it has named, so the step connects it
    have hmid := (hprogress.mid address).mpr hfirst
    rw [← hprogress.bufferSize] at hsecond
    have hconnected := (step_effect hrun).connects address hmid hsecond
    exact (hsafe _ w hl hreach address hconnected).mem_of_concat
  · intro hmatch l w hl hreach
    induction hreach with
    | nil =>
      intro address hmem
      rw [hstart.connected] at hmem
      exact absurd hmem (AList.notMem_empty address)
    | @snoc l step w w' hreach hrun ih =>
      intro address hmem
      have hprogress := progress_of_reaches hstart hreach
      rcases (step_effect hrun).connected address hmem with hmem | ⟨hmid, hsecond⟩
      · exact (ih ((List.prefix_append l [step]).trans hl) address hmem).concat step
      · rw [hprogress.bufferSize] at hsecond
        obtain ⟨first, hfirst, hversion⟩ := hmatch l step w' address hl (hreach.snoc hrun) hsecond
          ((hprogress.mid address).mp hmid)
        exact .of_mem hfirst hversion hsecond

end Runs

/-- A server whose only buffer holds the smallest first request there is. -/
def smallServer : ServerWorld :=
  .new { rentedBufferCount := 1, rentedBufferSize := 101, rentedBlockBufferCount := 1 } false
    fun _ => 0

theorem smallServer_started : smallServer.Started := ⟨smallServer, rfl, rfl⟩

/-- A whole `OpenConnectionRequest1` of a protocol version. -/
def firstRequest (version : UInt8) : Bytes := 5 :: magic.toList ++ version :: List.replicate 83 0

/-- A whole `OpenConnectionRequest2`. -/
def secondRequest : Bytes := 7 :: magic.toList ++ 4 :: List.replicate 16 0

/-- One address sends a first request of the version `version` and then a second request. -/
def handshake (version : UInt8) : List ServerStep :=
  [.receive (.datagram (firstRequest version) {}), .receive (.datagram secondRequest {})]

/-- No other version is requested. -/
theorem version_of_mem_handshake {version version' : UInt8} {size : Nat} {address : IPV4Addr}
    {first : ServerStep} (hmem : first ∈ handshake version)
    (hfirst : first.RequestsFirst size version' address) : version' = version := by
  obtain ⟨bytes, ⟨rfl, -⟩, hid, hversion⟩ := hfirst
  rcases List.mem_cons.mp hmem with heq | hmem
  · cases heq
    exact (Option.some.inj hversion).symm
  · -- the second datagram has another id
    cases List.mem_singleton.mp hmem
    exact absurd hid (by decide)

/-- Both requests, in the server's version. -/
theorem handshakeSafe_six : HandshakeSafe smallServer (handshake 6) := by
  refine (handshakeSafe_iff smallServer_started).mpr ?_
  intro l step w address hl _ _ hfirst
  obtain ⟨first, hmem, version, hfirst⟩ := hfirst
  refine ⟨first, hmem, ?_⟩
  have hversion : version = 6 :=
    version_of_mem_handshake (hl.subset (List.mem_append_left _ hmem)) hfirst
  rwa [hversion] at hfirst

/-- Version 5 is refused and connected for all that. -/
theorem not_handshakeSafe_five : ¬ HandshakeSafe smallServer (handshake 5) := by
  intro hsafe
  have hreach : Reaches ServerStep.run smallServer (handshake 5) _ :=
    reaches_of_succeeds (by decide +kernel)
  obtain ⟨w, hreach', hstep⟩ :=
    hreach.of_concat (l := [ServerStep.receive (.datagram (firstRequest 5) {})])
  have hprogress := progress_of_reaches smallServer_started hreach'
  have hmid : {} ∈ w.this.midConnectionClients :=
    (hprogress.mid {}).mpr ⟨_, List.mem_singleton_self _, 5, _, ⟨rfl, by decide⟩, rfl, rfl⟩
  have hconnected := (step_effect hstep).connects {} hmid
    ⟨_, ⟨rfl, by rw [hprogress.bufferSize]; decide⟩, rfl⟩
  obtain ⟨l₁, first, l₂, second, l₃, heq, hfirst, -⟩ :=
    hsafe _ _ (List.prefix_refl _) hreach {} hconnected
  have hmem : first ∈ handshake 5 := by
    rw [heq]
    exact List.mem_append_right _ List.mem_cons_self
  exact absurd (version_of_mem_handshake hmem hfirst) (by decide)

end Rakro
