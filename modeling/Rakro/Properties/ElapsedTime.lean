import Rakro.Properties.Readings
import Rakro.Properties.Reconnect

/-!
# Elapsed time

`route` takes the time of the last packet off the reading that it has just made, and `process_data`
the start of the server. Both differences are unsigned, so a reading before the time that it is
measured from makes them wrap. The system clock may be set back, and then a client that has just
sent a datagram looks as if it had been silent for ages, and is dropped.
-/

namespace Rakro

open Infra

/-! ## Steps -/

/-- `process_data` for the client of an address, if there is one. -/
def processDataOf (address : IPV4Addr) (buffer : BinaryBuffer) : RouterM PUnit := do
  match (← get).router.connectedClients.lookup address with
  | none => pure ⟨⟩
  | some client => onClient address client (processData buffer)

/-- What happens to the clients of a router. -/
inductive RouterStep
  | connect (address : IPV4Addr) (client : SemiConnectedClient) (guid : UInt64)
      (debugger : Option DebugInstrument) (serverStartTime : UInt64)
  | route (address : IPV4Addr) (buffer : BinaryBuffer)
  | processData (address : IPV4Addr) (buffer : BinaryBuffer)
  /-- Others rent and return buffers, and read the clock. -/
  | outside (company : BufferCompany) (readings : Nat)

/-- What the router does in a step. -/
def RouterStep.run : RouterStep → RouterM PUnit
  | connect address client guid debugger serverStartTime =>
    connectClient address client guid debugger serverStartTime
  | route address buffer => Rakro.route address buffer
  | processData address buffer => processDataOf address buffer
  | outside company readings => modify fun rw =>
    { rw with
      host := { rw.host with company, clock := fun n => rw.host.clock (n + readings) } }

/-- What a reading is measured from. -/
inductive Measure
  /-- `current_time - client.last_packet` -/
  | idle
  /-- `time_since_epoch() - this->server_start_time` -/
  | upTime

/-- The time that a client has stored for it. -/
def RakroServerClient.since (client : RakroServerClient) : Measure → UInt64
  | .idle => client.lastPacket
  | .upTime => client.serverStartTime

/-- The client of an address takes the difference of the reading `now` and a time it has stored. -/
inductive RouterStep.Reads : RouterStep → RouterWorld → IPV4Addr → Measure → UInt64 → Prop
  | idle {rw : RouterWorld} {address : IPV4Addr} {b : BinaryBuffer} {client : RakroServerClient} :
      rw.router.connectedClients.lookup address = some client →
      Reads (.route address b) rw address .idle (rw.host.clock 0)
  | routed {rw : RouterWorld} {address : IPV4Addr} {b : BinaryBuffer} {client : RakroServerClient}
      {i k : Nat} : rw.router.connectedClients.lookup address = some client →
      ¬ rw.router.timeout < rw.host.clock 0 - client.lastPacket →
      ReadsTimes (Rakro.processPacket b) (rw.entered client) k → i < k →
      Reads (.route address b) rw address .upTime (rw.host.clock (i + 1))
  | handled {rw : RouterWorld} {address : IPV4Addr} {b : BinaryBuffer} {client : RakroServerClient}
      {i k : Nat} : rw.router.connectedClients.lookup address = some client →
      ReadsTimes (Rakro.processData b) { this := client, host := rw.host } k → i < k →
      Reads (.processData address b) rw address .upTime (rw.host.clock i)

/-! ## What has happened -/

/-- When the last datagram of an address was accepted, and the start of the server it joined. -/
structure Stamp where
  accepted : UInt64 := 0
  start : UInt64 := 0
  deriving DecidableEq, Repr

/-- The moment that a measure counts from. -/
def Stamp.since (stamp : Stamp) : Measure → UInt64
  | .idle => stamp.accepted
  | .upTime => stamp.start

/-- A stamp for every address. -/
abbrev Stamps := IPV4Addr → Stamp

/-- A handshake counts as the first datagram. One with which its client is dropped does not. -/
def Stamps.note (stamps : Stamps) (step : RouterStep) (rw : RouterWorld) : Stamps :=
  match step with
  | .connect address _ _ _ serverStartTime =>
    if address ∈ rw.router.connectedClients then stamps
    else Function.update stamps address
      { accepted := rw.host.clock 0, start := serverStartTime }
  | .route address _ =>
    if address ∈ rw.router.connectedClients ∧
        address ∈ (after step.run rw).router.connectedClients then
      Function.update stamps address { stamps address with accepted := rw.host.clock 0 }
    else stamps
  | .processData .. => stamps
  | .outside .. => stamps

/-! ## What a step leaves -/

section Steps

variable {rw rw' : RouterWorld} {address : IPV4Addr} {client : RakroServerClient}
  {measure : Measure} {now : UInt64}

/-- A reading is taken for an address that has a client. -/
theorem RouterStep.Reads.connected {step : RouterStep} (h : step.Reads rw address measure now) :
    ∃ client, rw.router.connectedClients.lookup address = some client := by
  cases h with
  | idle hclient => exact ⟨_, hclient⟩
  | routed hclient => exact ⟨_, hclient⟩
  | handled hclient => exact ⟨_, hclient⟩

/-- What is read is one of the readings to come. -/
theorem RouterStep.Reads.exists_eq {step : RouterStep} (h : step.Reads rw address measure now) :
    ∃ i, now = rw.host.clock i := by
  cases h with
  | idle => exact ⟨_, rfl⟩
  | routed => exact ⟨_, rfl⟩
  | handled => exact ⟨_, rfl⟩

/-- What reads the clock for its differences only leaves the stored times as they are. -/
theorem since_after {α : Type} {m : ClientM α} (h : CountsTimes m) (w : World) (measure : Measure) :
    (after m w).this.since measure = w.this.since measure := by
  obtain ⟨k, hk⟩ := h w
  cases measure with
  | idle => exact congrArg Times.lastPacket hk.part_after
  | upTime => exact congrArg Times.serverStartTime hk.part_after

theorem readsOn_after {α : Type} {m : ClientM α} (h : CountsTimes m) (w : World) :
    ReadsOn w.host.clock (after m w).host.clock := by
  obtain ⟨k, hk⟩ := h w
  exact ⟨k, congrFun (congrArg Times.clock hk.part_after)⟩

/-- What a step leaves behind, whether it returns or throws. -/
inductive RouterOutcome : RouterStep → RouterWorld → Prop
  | quiet {step : RouterStep} {rw : RouterWorld} :
      (∀ stamps : Stamps, stamps.note step rw = stamps) →
      (after step.run rw).router = rw.router →
      ReadsOn rw.host.clock (after step.run rw).host.clock → RouterOutcome step rw
  | joined {rw : RouterWorld} {address : IPV4Addr} {client : SemiConnectedClient} {guid : UInt64}
      {debugger : Option DebugInstrument} {serverStartTime : UInt64} :
      address ∉ rw.router.connectedClients →
      after (RouterStep.connect address client guid debugger serverStartTime).run rw =
        rw.joined address (freshClient address client guid debugger (rw.host.clock 0)
          serverStartTime) →
      RouterOutcome (.connect address client guid debugger serverStartTime) rw
  | dropped {rw : RouterWorld} {address : IPV4Addr} {b : BinaryBuffer}
      {client : RakroServerClient} :
      rw.router.connectedClients.lookup address = some client →
      rw.router.timeout < rw.host.clock 0 - client.lastPacket →
      after (RouterStep.route address b).run rw = rw.dropped address client b →
      RouterOutcome (.route address b) rw
  | routed {rw : RouterWorld} {address : IPV4Addr} {b : BinaryBuffer}
      {client : RakroServerClient} :
      rw.router.connectedClients.lookup address = some client →
      after (RouterStep.route address b).run rw =
        rw.store address (after (Rakro.processPacket b) (rw.entered client)) →
      RouterOutcome (.route address b) rw
  | handled {rw : RouterWorld} {address : IPV4Addr} {b : BinaryBuffer}
      {client : RakroServerClient} :
      rw.router.connectedClients.lookup address = some client →
      after (RouterStep.processData address b).run rw =
        rw.store address (after (Rakro.processData b) { this := client, host := rw.host }) →
      RouterOutcome (.processData address b) rw

/-- What a method leaves of its client is what the map has of it. -/
theorem after_onClient (address : IPV4Addr) (client : RakroServerClient) (m : ClientM PUnit)
    (rw : RouterWorld) : after (onClient address client m) rw =
      rw.store address (after m { this := client, host := rw.host }) := by
  cases h : m.run { this := client, host := rw.host } with
  | ok u w =>
    have hrun : (onClient address client m).run rw = .ok u (rw.store address w) := by
      unfold onClient
      simp only [EStateM.run] at h ⊢
      rw [h]
    rw [after_of_ok hrun, after_of_ok h]
  | error e w =>
    have hrun : (onClient address client m).run rw = .error e (rw.store address w) := by
      unfold onClient
      simp only [EStateM.run] at h ⊢
      rw [h]
    rw [after_of_error hrun, after_of_error h]

theorem mem_of_lookup (h : rw.router.connectedClients.lookup address = some client) :
    address ∈ rw.router.connectedClients :=
  AList.lookup_isSome.mp (by rw [h]; rfl)

/-- What connecting does to the clients. -/
theorem outcome_connect (mid : SemiConnectedClient) (guid : UInt64)
    (debugger : Option DebugInstrument) (serverStartTime : UInt64) :
    RouterOutcome (.connect address mid guid debugger serverStartTime) rw := by
  by_cases hmem : address ∈ rw.router.connectedClients
  · have hafter : after
        (RouterStep.connect address mid guid debugger serverStartTime).run rw = rw :=
      after_of_ok (run_connectClient_known hmem)
    refine .quiet (fun stamps => if_pos hmem) (congrArg RouterWorld.router hafter) ?_
    rw [hafter]
    exact .refl _
  · exact .joined hmem (after_of_ok (run_connectClient_new hmem))

/-- What a datagram does to the clients. -/
theorem outcome_route (b : BinaryBuffer) : RouterOutcome (.route address b) rw := by
  cases hclient : rw.router.connectedClients.lookup address with
  | none =>
    have hafter := after_congr (run_route_unknown hclient b)
    refine .quiet (fun stamps => if_neg fun h => ?_)
      ((congrArg RouterWorld.router hafter).trans rfl) ?_
    · exact AList.lookup_eq_none.mp hclient h.1
    · rw [show after (RouterStep.route address b).run rw = _ from hafter]
      exact .refl _
  | some client =>
    by_cases htimeout : rw.router.timeout < rw.host.clock 0 - client.lastPacket
    · exact .dropped hclient htimeout (after_of_ok (run_route_timeout hclient htimeout b))
    · refine .routed hclient ?_
      exact (after_congr (run_route_passes hclient htimeout b)).trans (after_onClient _ _ _ _)

/-- What a payload does to the clients. -/
theorem outcome_processData (b : BinaryBuffer) : RouterOutcome (.processData address b) rw := by
  cases hclient : rw.router.connectedClients.lookup address with
  | none =>
    have hrun : (processDataOf address b).run rw = .ok ⟨⟩ rw := by
      unfold processDataOf
      rw [run_get_bind, hclient]
      rfl
    have hafter : after (RouterStep.processData address b).run rw = rw := after_of_ok hrun
    refine .quiet (fun _ => rfl) (congrArg RouterWorld.router hafter) ?_
    rw [hafter]
    exact .refl _
  | some client =>
    refine .handled hclient ?_
    have hrun : (processDataOf address b).run rw =
        (onClient address client (processData b)).run rw := by
      unfold processDataOf
      rw [run_get_bind, hclient]
    exact (after_congr hrun).trans (after_onClient address client _ rw)

/-- Whatever the step is, that is all it does. -/
theorem routerOutcome (step : RouterStep) (rw : RouterWorld) : RouterOutcome step rw := by
  cases step with
  | connect address mid guid debugger start => exact outcome_connect mid guid debugger start
  | route address b => exact outcome_route b
  | processData address b => exact outcome_processData b
  | outside company readings => exact .quiet (fun _ => rfl) rfl ⟨readings, fun _ => rfl⟩

theorem readsOn_step (step : RouterStep) (rw : RouterWorld) :
    ReadsOn rw.host.clock (after step.run rw).host.clock := by
  cases routerOutcome step rw with
  | quiet _ _ hclock => exact hclock
  | joined _ hafter => rw [hafter]; exact .tick _
  | dropped _ _ hafter => rw [hafter]; exact .tick _
  | routed _ hafter =>
    rw [hafter]
    exact (ReadsOn.tick _).trans (readsOn_after (counts_processPacket _) _)
  | handled _ hafter => rw [hafter]; exact readsOn_after (counts_processData _) _

/-! ## The stored times are those of what has happened -/

/-- Each client's own times are those of its address's stamp. -/
def Stamps.Agree (stamps : Stamps) (rw : RouterWorld) : Prop :=
  ∀ address client, rw.router.connectedClients.lookup address = some client →
    ∀ measure, client.since measure = (stamps address).since measure

variable {stamps : Stamps}

/-- The entry of one address and its stamp change together. -/
theorem Stamps.Agree.store (h : stamps.Agree rw) {rw' : RouterWorld} {client' : RakroServerClient}
    {stamp : Stamp}
    (hclients : rw'.router.connectedClients = rw.router.connectedClients.insert address client')
    (hstamp : ∀ measure, client'.since measure = stamp.since measure) :
    Stamps.Agree (Function.update stamps address stamp) rw' := by
  intro address' client₁ hlookup measure
  rw [hclients] at hlookup
  by_cases haddress : address' = address
  · subst haddress
    rw [AList.lookup_insert] at hlookup
    cases hlookup
    rw [Function.update_self]
    exact hstamp measure
  · rw [AList.lookup_insert_ne haddress] at hlookup
    rw [Function.update_of_ne haddress]
    exact h address' client₁ hlookup measure

/-- What a step does to the stored times is what it is noted for. -/
theorem Stamps.Agree.step (h : stamps.Agree rw) (step : RouterStep) :
    (stamps.note step rw).Agree (after step.run rw) := by
  cases routerOutcome step rw with
  | quiet hnote hrouter _ =>
    intro address client hlookup
    rw [hrouter] at hlookup
    rw [hnote]
    exact h address client hlookup
  | joined hmem hafter =>
    rw [hafter, Stamps.note, if_neg hmem]
    exact h.store rfl fun measure => by cases measure <;> rfl
  | @dropped _ address b client hclient _ hafter =>
    have hgone : address ∉ (after (RouterStep.route address b).run rw).router.connectedClients := by
      rw [hafter]
      exact fun hmem => (AList.mem_erase.mp hmem).1 rfl
    rw [Stamps.note, if_neg fun hboth => hgone hboth.2, hafter]
    intro address' client' hlookup
    have hne : address' ≠ address := by
      rintro rfl
      cases (AList.lookup_erase _ _).symm.trans hlookup
    exact h address' client' ((AList.lookup_erase_ne hne).symm.trans hlookup)
  | @routed _ address b client hclient hafter =>
    have hstays : address ∈
        (after (RouterStep.route address b).run rw).router.connectedClients := by
      rw [hafter]
      exact (AList.mem_insert _).mpr (.inl rfl)
    rw [Stamps.note, if_pos ⟨mem_of_lookup hclient, hstays⟩, hafter]
    refine h.store rfl fun measure => ?_
    rw [since_after (counts_processPacket b)]
    cases measure with
    | idle => rfl
    | upTime => exact h address client hclient .upTime
  | @handled _ address b client hclient hafter =>
    rw [hafter]
    have hstore : Stamps.Agree (Function.update stamps address (stamps address))
        (rw.store address (after (processData b) { this := client, host := rw.host })) :=
      h.store rfl fun measure =>
        (since_after (counts_processData b) _ measure).trans (h address client hclient measure)
    rwa [Function.update_eq_self] at hstore

/-! ## One step -/

/-- A client is lost only to a datagram of its own with which it seems to have timed out. -/
theorem timeout_of_gone {step : RouterStep} (hmem : address ∈ rw.router.connectedClients)
    (hgone : address ∉ (after step.run rw).router.connectedClients) :
    ∃ b client, step = .route address b ∧
      rw.router.connectedClients.lookup address = some client ∧
      rw.router.timeout < rw.host.clock 0 - client.lastPacket := by
  cases routerOutcome step rw with
  | quiet _ hrouter _ =>
    rw [hrouter] at hgone
    exact absurd hmem hgone
  | joined _ hafter | routed _ hafter | handled _ hafter =>
    -- all of these insert, and nothing goes
    rw [hafter] at hgone
    exact absurd ((AList.mem_insert _).mpr (.inr hmem)) hgone
  | @dropped _ address' b client hclient htimeout hafter =>
    by_cases haddress : address = address'
    · subst haddress
      exact ⟨b, client, rfl, hclient, htimeout⟩
    · rw [hafter] at hgone
      exact absurd (AList.mem_erase.mpr ⟨haddress, hmem⟩) hgone

/-- No difference of the step wraps, and a client is dropped only if it has been silent too long. -/
structure StepSound (stamps : Stamps) (step : RouterStep) (rw : RouterWorld) : Prop where
  exact : ∀ address measure now client, step.Reads rw address measure now →
    rw.router.connectedClients.lookup address = some client →
    (now - client.since measure).toNat + (client.since measure).toNat = now.toNat
  dropped : ∀ address, address ∈ rw.router.connectedClients →
    address ∉ (after step.run rw).router.connectedClients →
    (stamps address).accepted.toNat + rw.router.timeout.toNat < (rw.host.clock 0).toNat

/-- No reading of the step is before what it is measured from. -/
def KeepsUp (stamps : Stamps) (step : RouterStep) (rw : RouterWorld) : Prop :=
  ∀ address measure now, step.Reads rw address measure now →
    ((stamps address).since measure).toNat ≤ now.toNat

/-- Where the stamps agree, a step measures soundly when its readings keep up with them. -/
theorem stepSound_iff (h : stamps.Agree rw) (step : RouterStep) :
    StepSound stamps step rw ↔ KeepsUp stamps step rw := by
  constructor
  · intro hsound address measure now hreads
    obtain ⟨client, hclient⟩ := hreads.connected
    have hexact := hsound.exact address measure now client hreads hclient
    rw [← h address client hclient measure]
    omega
  · intro hkeeps
    refine ⟨fun address measure now client hreads hclient => ?_, fun address hmem hgone => ?_⟩
    · have hle := hkeeps address measure now hreads
      rw [← h address client hclient measure] at hle
      rw [UInt64.toNat_sub_of_le _ _ (UInt64.le_iff_toNat_le.mpr hle)]
      omega
    · obtain ⟨b, client, rfl, hclient, htimeout⟩ := timeout_of_gone hmem hgone
      have hlast : client.lastPacket = (stamps address).accepted := h address client hclient .idle
      have hle : (stamps address).accepted.toNat ≤ (rw.host.clock 0).toNat :=
        hkeeps address .idle _ (.idle hclient)
      rw [hlast] at htimeout
      exact (timeout_lt_iff hle).mp htimeout

end Steps

/-! ## Runs -/

/-- What has happened in a run. -/
def stampsOf (start : RouterWorld) (steps : List RouterStep) : Stamps :=
  noted RouterStep.run (fun stamps step rw => stamps.note step rw) (fun _ => {}) start steps

/-- The last step is noted behind the ones before it. -/
theorem stampsOf_concat (start : RouterWorld) (l : List RouterStep) (step : RouterStep) :
    stampsOf start (l ++ [step]) =
      (stampsOf start l).note step (afterAll RouterStep.run start l) := noted_concat _ _ _ _

/-- In every run from an empty table, the clients' own times are those of the stamps. -/
theorem agree_afterAll {start : RouterWorld} (hstart : start.router.connectedClients = ∅)
    (l : List RouterStep) : (stampsOf start l).Agree (afterAll RouterStep.run start l) := by
  induction l using List.reverseRecOn with
  | nil =>
    intro address client hlookup
    rw [afterAll_nil, hstart, AList.lookup_empty] at hlookup
    cases hlookup
  | append_singleton l step ih =>
    rw [stampsOf_concat, afterAll_concat]
    exact ih.step step

/-- Of each step of a run, behind one that throws too, `C` holds with what has happened by then. -/
def EachStep (C : Stamps → RouterStep → RouterWorld → Prop) (start : RouterWorld)
    (steps : List RouterStep) : Prop :=
  ∀ l step, l ++ [step] <+: steps → C (stampsOf start l) step (afterAll RouterStep.run start l)

/-! ## On a clock that is never set back -/

/-- Nothing is noted that is later than the reading of the step or the start of the server. -/
theorem Stamps.note_le {stamps : Stamps} {step : RouterStep} {rw : RouterWorld} {bound : UInt64}
    (h : ∀ address measure, ((stamps address).since measure).toNat ≤ bound.toNat)
    (hclock : (rw.host.clock 0).toNat ≤ bound.toNat)
    (hjoin : ∀ address mid guid debugger serverStartTime,
      step = .connect address mid guid debugger serverStartTime →
        serverStartTime.toNat ≤ bound.toNat) (address : IPV4Addr) (measure : Measure) :
    ((stamps.note step rw address).since measure).toNat ≤ bound.toNat := by
  have hupdate : ∀ (address' : IPV4Addr) (stamp : Stamp),
      (∀ measure, (stamp.since measure).toNat ≤ bound.toNat) →
        ((Function.update stamps address' stamp address).since measure).toNat ≤ bound.toNat := by
    intro address' stamp hstamp
    exact (Function.forall_update_iff stamps
      fun _ stamp' => (stamp'.since measure).toNat ≤ bound.toNat).mpr
        ⟨hstamp measure, fun other _ => h other measure⟩ address
  cases step with
  | connect address' mid guid debugger serverStartTime =>
    unfold Stamps.note
    dsimp only
    split
    · exact h address measure
    · refine hupdate address' _ fun measure => ?_
      cases measure with
      | idle => exact hclock
      | upTime => exact hjoin _ _ _ _ _ rfl
  | route address' b =>
    unfold Stamps.note
    dsimp only
    split
    · refine hupdate address' _ fun measure => ?_
      cases measure with
      | idle => exact hclock
      | upTime => exact h address' .upTime
    · exact h address measure
  | processData address' b => exact h address measure
  | outside company readings => exact h address measure

/-- The clock goes on, and nothing that has been noted is later than its next reading. -/
structure Timely (start : RouterWorld) (l : List RouterStep) (rw : RouterWorld) : Prop where
  runs : Clock.Runs rw.host.clock
  start_le : (start.host.clock 0).toNat ≤ (rw.host.clock 0).toNat
  noted_le : ∀ address measure,
    ((stampsOf start l address).since measure).toNat ≤ (rw.host.clock 0).toNat

section Timely

variable {start : RouterWorld} {steps : List RouterStep}

/-- With a clock that goes on, nothing is noted that is later than the next reading. -/
theorem timely_of_runs (hruns : Clock.Runs start.host.clock)
    (hjoin : ∀ address mid guid debugger serverStartTime,
      .connect address mid guid debugger serverStartTime ∈ steps →
        serverStartTime.toNat ≤ (start.host.clock 0).toNat) (l : List RouterStep)
    (hl : l <+: steps) : Timely start l (afterAll RouterStep.run start l) := by
  refine afterAll_induction (P := Timely start) ⟨hruns, Nat.le_refl _, fun _ measure => ?_⟩
    (fun l step hl ih => ?_) l hl
  · cases measure <;> exact Nat.zero_le _
  · have hon := readsOn_step step (afterAll RouterStep.run start l)
    have hle := ih.runs.le hon
    refine ⟨ih.runs.of_readsOn hon, ih.start_le.trans hle, ?_⟩
    rw [stampsOf_concat]
    refine Stamps.note_le (fun address measure => (ih.noted_le address measure).trans hle) hle ?_
    rintro address mid guid debugger serverStartTime rfl
    have hmem := hl.subset (List.mem_append_right l List.mem_cons_self)
    exact (hjoin address mid guid debugger serverStartTime hmem).trans (ih.start_le.trans hle)

/-- While the clock is never set back and the server has started before, every step keeps up. -/
theorem keepsUp_of_runs (hruns : Clock.Runs start.host.clock)
    (hjoin : ∀ address mid guid debugger serverStartTime,
      .connect address mid guid debugger serverStartTime ∈ steps →
        serverStartTime.toNat ≤ (start.host.clock 0).toNat) : EachStep KeepsUp start steps := by
  intro l step hl address measure now hreads
  have htimely := timely_of_runs hruns hjoin l ((List.prefix_append l [step]).trans hl)
  obtain ⟨i, rfl⟩ := hreads.exists_eq
  exact (htimely.noted_le address measure).trans (htimely.runs (Nat.zero_le i))

end Timely

/-! ## Exactly when -/

/--
**No clock difference of a run wraps, and no client is dropped too early, exactly when no reading is
before the time that it is measured from.**
-/
theorem stepsSound_iff_keepUp {start : RouterWorld} (hstart : start.router.connectedClients = ∅)
    (steps : List RouterStep) : EachStep StepSound start steps ↔ EachStep KeepsUp start steps :=
  forall₃_congr fun l step _ => stepSound_iff (agree_afterAll hstart l) step

/-- A router without clients, with a buffer for a pong and one for the datagram around it. -/
def clocked (clock : Clock) : RouterWorld where
  host := { company := .new 2 23 1, clock }

/-- An address connects. -/
def comesIn : RouterStep := .connect {} {} 0 none 0

/-- A datagram of one ping, which is answered with how long the server has been up. -/
def pingsOnce : RouterStep :=
  .route {} { bytes := [0x80, 0, 0, 0, 0, 0, 0x48] ++ List.replicate 9 0 }

/-- A connection and a ping that is answered, at one moment. -/
theorem stepsSound_steady : EachStep StepSound (clocked fun _ => 10) [comesIn, pingsOnce] := by
  refine (stepsSound_iff_keepUp rfl _).mpr (keepsUp_of_runs monotone_const ?_)
  intro address mid guid debugger serverStartTime hmem
  rcases List.mem_cons.mp hmem with hjoin | hother
  · cases hjoin
    exact Nat.zero_le _
  · cases List.mem_singleton.mp hother

/-- Between the two readings the clock is set back by a millisecond. -/
def setBack : RouterWorld := clocked fun n => if n = 0 then 10 else 9

/-- The client that has just connected is dropped. -/
theorem not_stepsSound_setBack :
    {} ∈ (afterAll RouterStep.run setBack [comesIn]).router.connectedClients ∧
      {} ∉ (afterAll RouterStep.run setBack [comesIn, pingsOnce]).router.connectedClients ∧
      ¬ EachStep StepSound setBack [comesIn, pingsOnce] := by
  refine ⟨by decide, by decide, fun h => ?_⟩
  have hsound := h [comesIn] pingsOnce (List.prefix_refl _)
  have hdropped := hsound.dropped {} (by decide) (by decide)
  exact absurd hdropped (by decide)

end Rakro
