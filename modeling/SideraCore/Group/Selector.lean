import SideraCore.Concurrency.Machine

/-!
Owns the connections of a selector (`group.Selector`) and its interrupt group
(`interrupt.Group`): which of them a switch to another member closes.

A dial loads the selected member, and the connection joins the interrupt group only
when the dial returns. A connection that is handed over as a whole (`NewConnection`,
`NewPacketConnection`) goes to the member without joining the group. These are
the two ways to escape a switch, and there is no other.
-/

namespace SideraCore.Group

open Concurrency

/-- A call that has loaded the selected member, after `epoch` switches, and waits for
its connection. -/
structure Load where
  epoch : Nat
  isExternal : Bool
  handled : Bool
deriving DecidableEq, Repr

/-- Whether a connection is open, was closed by its user, or by the group. -/
inductive Status where
  | running
  | closed
  | interrupted
deriving DecidableEq, Repr

/-- A connection that the selector carries, and whether the interrupt group has it. -/
structure Carried extends Load where
  status : Status
  grouped : Bool
deriving DecidableEq, Repr

/-- `Selector`, with the switches that have swapped but not yet interrupted, and those
that have returned. -/
structure Selector where
  outbounds : List String
  interruptExternalConnections : Bool
  selected : String
  switches : Nat
  loads : List Load
  connections : List Carried
  interrupting : List Nat
  returned : List Nat
deriving DecidableEq, Repr

inductive Event where
  /-- `DialContext` or `ListenPacket` loads the member. -/
  | dial (isExternal : Bool)
  /-- `NewConnection` or `NewPacketConnection` loads the member. -/
  | handle
  /-- The call at an index gets its connection, or fails. -/
  | answer (index : Nat) (succeeds : Bool)
  /-- `SelectOutbound`, up to its swap. -/
  | swap (tag : String)
  /-- The rest of a `SelectOutbound` that changed the selection. -/
  | interrupt (number : Nat)
  /-- The user closes a connection. -/
  | close (index : Nat)
deriving DecidableEq, Repr

def Load.exempt (load : Load) (interruptExternalConnections : Bool) : Prop :=
  load.isExternal = true ∧ interruptExternalConnections = false

namespace Carried

/-- `Group.NewConn` and `Group.NewPacketConn`, or a connection that does not join. -/
def newConn (load : Load) : Carried := { load with status := .running, grouped := !load.handled }

def interrupt (interruptExternalConnections : Bool) (connection : Carried) : Carried :=
  if connection.grouped && (!connection.isExternal || interruptExternalConnections) then
    { connection with status := .interrupted, grouped := false }
  else connection

def close (connection : Carried) : Carried :=
  if connection.status = .running then { connection with status := .closed, grouped := false }
  else connection

end Carried

namespace Selector

def step (selector : Selector) : Event → Option Selector
  | .dial isExternal =>
      some { selector with loads := selector.loads ++ [⟨selector.switches, isExternal, false⟩] }
  | .handle => some { selector with loads := selector.loads ++ [⟨selector.switches, true, true⟩] }
  | .answer index succeeds => do
      let load ← selector.loads[index]?
      let waiting := { selector with loads := selector.loads.eraseIdx index }
      if succeeds then
        return { waiting with connections := selector.connections ++ [Carried.newConn load] }
      return waiting
  | .swap tag =>
      if tag ∉ selector.outbounds ∨ selector.selected = tag then some selector
      else
        let number := selector.switches + 1
        some { selector with
          selected := tag, switches := number, interrupting := selector.interrupting ++ [number] }
  | .interrupt number =>
      if number ∈ selector.interrupting then
        some { selector with
          connections :=
            selector.connections.map (Carried.interrupt selector.interruptExternalConnections)
          interrupting := selector.interrupting.erase number
          returned := number :: selector.returned }
      else none
  | .close index => do
      let connection ← selector.connections[index]?
      return { selector with connections := selector.connections.set index connection.close }

def machine : Machine Selector Event := ⟨step⟩

def start (outbounds : List String) (selected : String) (interruptExternalConnections : Bool) : Selector :=
  ⟨outbounds, interruptExternalConnections, selected, 0, [], [], [], []⟩

/-- When a switch and the calls that had loaded a member before it have returned, their
connections are closed unless exempt. No exempt one is interrupted. -/
def Switched (selector : Selector) : Prop :=
  (∀ number ∈ selector.returned, (∀ load ∈ selector.loads, number ≤ load.epoch) →
    ∀ connection ∈ selector.connections, connection.epoch < number →
      connection.status = .running → connection.exempt selector.interruptExternalConnections) ∧
  ∀ connection ∈ selector.connections, connection.status = .interrupted →
    ¬connection.exempt selector.interruptExternalConnections

/-- A call that is not exempt gets its connection before a later switch has returned,
and at a swap no connection that is not exempt is being handed over or is open after it
was. -/
def Careful (selector : Selector) : Event → Prop
  | .answer index true => ∀ load ∈ selector.loads[index]?,
      load.exempt selector.interruptExternalConnections ∨ ∀ number ∈ selector.returned, number ≤ load.epoch
  | .swap tag => tag ∈ selector.outbounds → selector.selected ≠ tag →
      (∀ load ∈ selector.loads, load.handled = true →
        load.exempt selector.interruptExternalConnections) ∧
      ∀ connection ∈ selector.connections, connection.handled = true → connection.status = .running →
        connection.exempt selector.interruptExternalConnections
  | _ => True

end Selector

/-- What is handed over and not exempt has loaded the member that is selected. -/
def Load.Current (option : Bool) (switches : Nat) (load : Load) : Prop :=
  load.handled = true → load.exempt option ∨ switches ≤ load.epoch

/-- What careful steps keep of a connection, after some switches of which some have returned. -/
structure Carried.Sound (option : Bool) (switches : Nat) (returned : List Nat) (connection : Carried) :
    Prop where
  grouped : connection.status = .running → connection.handled = false → connection.grouped = true
  current : connection.status = .running → connection.Current option switches
  switched : ∀ number ∈ returned, connection.epoch < number → connection.status = .running →
    connection.exempt option
  spared : connection.status = .interrupted → ¬connection.exempt option

namespace Carried

variable {option : Bool} {switches : Nat} {returned : List Nat} {connection : Carried}

theorem sound_newConn {load : Load} (current : load.Current option switches)
    (careful : load.exempt option ∨ ∀ number ∈ returned, number ≤ load.epoch) :
    (newConn load).Sound option switches returned where
  grouped := by
    intro _ direct
    simp only [newConn, show load.handled = false from direct, Bool.not_false]
  current := fun _ => current
  switched := fun number isReturned earlier _ =>
    careful.resolve_right fun all => Nat.not_lt.2 (all number isReturned) earlier
  spared := fun interrupted => Status.noConfusion interrupted

theorem Sound.interrupt {number : Nat} (sound : connection.Sound option switches returned)
    (made : number ≤ switches) :
    (connection.interrupt option).Sound option switches (number :: returned) := by
  unfold Carried.interrupt
  split
  case isTrue reached =>
    refine ⟨fun running => Status.noConfusion running, fun running => Status.noConfusion running,
      fun _ _ _ running => Status.noConfusion running, ?_⟩
    rintro - ⟨isExternal, unset⟩
    change connection.isExternal = true at isExternal
    simp [isExternal, unset] at reached
  case isFalse kept =>
    refine ⟨sound.grouped, sound.current, ?_, sound.spared⟩
    intro later isReturned earlier running
    rcases List.mem_cons.1 isReturned with rfl | isReturned
    · cases handled : connection.handled with
      | true => exact (sound.current running handled).resolve_right (by omega)
      | false =>
          -- the group has it, so that it was not closed means that it is exempt
          simpa [sound.grouped running handled, Load.exempt] using kept
    · exact sound.switched later isReturned earlier running

theorem Sound.close (sound : connection.Sound option switches returned) :
    connection.close.Sound option switches returned := by
  unfold Carried.close
  split
  · exact ⟨fun running => Status.noConfusion running, fun running => Status.noConfusion running,
      fun _ _ _ running => Status.noConfusion running, fun interrupted => Status.noConfusion interrupted⟩
  · exact sound

end Carried

namespace Selector

structure Sound (selector : Selector) : Prop where
  connections : ∀ connection ∈ selector.connections,
    connection.Sound selector.interruptExternalConnections selector.switches selector.returned
  loads : ∀ load ∈ selector.loads, load.Current selector.interruptExternalConnections selector.switches
  interrupting : ∀ number ∈ selector.interrupting, number ≤ selector.switches

theorem Sound.step {selector after : Selector} {event : Event}
    (stepped : selector.step event = some after) (careful : selector.Careful event)
    (sound : selector.Sound) : after.Sound := by
  cases event with
  | dial isExternal | handle =>
      cases stepped
      refine ⟨sound.connections, List.forall_mem_append.2 ⟨sound.loads, ?_⟩, sound.interrupting⟩
      exact List.forall_mem_singleton.2 fun _ => .inr (Nat.le_refl _)
  | answer index succeeds =>
      obtain ⟨load, found, answered⟩ := Option.bind_eq_some_iff.1 stepped
      have loads : ∀ load ∈ selector.loads.eraseIdx index,
          load.Current selector.interruptExternalConnections selector.switches :=
        fun load member => sound.loads load (List.mem_of_mem_eraseIdx member)
      cases succeeds with
      | false =>
          cases answered
          exact ⟨sound.connections, loads, sound.interrupting⟩
      | true =>
          cases answered
          refine ⟨List.forall_mem_append.2 ⟨sound.connections, ?_⟩, loads, sound.interrupting⟩
          exact List.forall_mem_singleton.2
            (Carried.sound_newConn (sound.loads load (List.mem_of_getElem? found)) (careful load found))
  | swap tag =>
      simp only [Selector.step] at stepped
      split at stepped
      · cases stepped
        exact sound
      · rename_i switches
        cases stepped
        rw [not_or, not_not] at switches
        obtain ⟨loads, connections⟩ := careful switches.1 switches.2
        refine ⟨fun connection member => ?_, fun load member handled => .inl (loads load member handled), ?_⟩
        · have before := sound.connections connection member
          exact ⟨before.grouped,
            fun running handled => .inl (connections connection member handled running),
            before.switched, before.spared⟩
        · refine List.forall_mem_append.2 ⟨fun number member => ?_, by simp⟩
          exact (sound.interrupting number member).trans (Nat.le_succ _)
  | interrupt number =>
      simp only [Selector.step] at stepped
      split at stepped
      · rename_i member
        cases stepped
        refine ⟨List.forall_mem_map.2 fun connection isCarried => ?_, sound.loads, fun other left => ?_⟩
        · exact (sound.connections connection isCarried).interrupt (sound.interrupting number member)
        · exact sound.interrupting other (List.mem_of_mem_erase left)
      · cases stepped
  | close index =>
      obtain ⟨connection, found, closed⟩ := Option.bind_eq_some_iff.1 stepped
      cases closed
      refine ⟨fun other member => ?_, sound.loads, sound.interrupting⟩
      rcases List.mem_or_eq_of_mem_set member with member | rfl
      · exact sound.connections other member
      · exact (sound.connections connection (List.mem_of_getElem? found)).close

theorem Sound.switched {selector : Selector} (sound : selector.Sound) : selector.Switched :=
  ⟨fun number isReturned _ connection member =>
    (sound.connections connection member).switched number isReturned,
    fun connection member => (sound.connections connection member).spared⟩

/-- In every run of careful steps, the connections of a member are closed when a switch to
another one has returned. -/
theorem switches_interrupt {outbounds : List String} {selected : String} {option : Bool}
    {events : List Event} {selector : Selector}
    (ran : machine.run (start outbounds selected option) events = some selector)
    (careful : machine.Meets Careful (start outbounds selected option) events) : selector.Switched := by
  have initially : (start outbounds selected option).Sound := by
    constructor <;> simp [start]
  exact (machine.run_invariant (fun _ _ _ => Sound.step) ran careful initially).switched

/-- A connection that was handed over is closed before the switch, and a dial returns. -/
theorem switches_interrupt_dialed :
    Switched ⟨["a", "b"], true, "b", 1, [],
      [⟨⟨0, true, true⟩, .closed, false⟩, ⟨⟨0, false, false⟩, .interrupted, false⟩], [], [1]⟩ := by
  refine @switches_interrupt ["a", "b"] "a" true
    [.handle, .answer 0 true, .close 0, .dial false, .answer 0 true, .swap "b", .interrupt 1] _ rfl ?_
  simp [Machine.Meets, machine, start, step, Careful, Carried.newConn, Carried.close]

/-- An internal connection that was being dialed during the switch stays open. So does one
that was handed over, although external connections are to be interrupted. -/
theorem switch_escaped :
    (∃ selector, machine.run (start ["a", "b"] "a" false)
        [.dial false, .swap "b", .interrupt 1, .answer 0 true] = some selector ∧ ¬selector.Switched) ∧
      ∃ selector, machine.run (start ["a", "b"] "a" true)
        [.handle, .answer 0 true, .swap "b", .interrupt 1] = some selector ∧ ¬selector.Switched := by
  constructor
  · refine ⟨_, rfl, fun switched => ?_⟩
    have exempt := switched.1 1 (by decide) (by decide) ⟨⟨0, false, false⟩, .running, true⟩ (by decide)
      (by decide) rfl
    exact Bool.noConfusion exempt.1
  · refine ⟨_, rfl, fun switched => ?_⟩
    have exempt := switched.1 1 (by decide) (by decide) ⟨⟨0, true, true⟩, .running, false⟩ (by decide)
      (by decide) rfl
    exact Bool.noConfusion exempt.2

end Selector

end SideraCore.Group
