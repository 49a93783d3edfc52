import HikaruOpenLive.Foundations.Upsert
import HikaruOpenLive.Mcp.PortConfig

/-! # The sessions of the MCP server

`IpcStub` keeps the agents of each slot and a log of what happened. `listen` and `connect` look at
whether the slot is enabled and `handshake` at whether it is full; `disconnect` takes one agent away and
logs that an agent left.

`along_law_iff` says over which calls a slot takes only whom it may, and its agents are those the log
shows.
-/
set_option autoImplicit false

namespace HikaruOpenLive.Mcp

open Foundations.Runs Foundations.Upsert

inductive IpcDirection where
  | listen
  | connect
deriving DecidableEq

inductive IpcEvent where
  | listen (portSlot : PortSlotId) (path : Option String)
  | connect (portSlot : PortSlotId) (path : Option String)
  | handshake (portSlot : PortSlotId) (agent : String)
  | disconnect (portSlot : PortSlotId)
  | failed (portSlot : PortSlotId) (reason : String)
deriving DecidableEq

inductive IpcError where
  | unsupportedTransport (transport : McpTransport)
  | unknownPort (id : PortSlotId)
  | portDisabled (id : PortSlotId)
  | portFull (id : PortSlotId)
  | socketUnavailable (path : String)
deriving DecidableEq

def IpcError.message : IpcError → String
  | .unsupportedTransport transport =>
    "el transporte '" ++ transport.label ++ "' todavía no está implementado"
  | .unknownPort id => "el slot " ++ toString id.val ++ " no existe"
  | .portDisabled id => "el slot " ++ toString id.val ++ " está deshabilitado"
  | .portFull id => "el slot " ++ toString id.val ++ " ya tiene todos sus clientes"
  | .socketUnavailable path => "el socket " ++ path ++ " no está disponible"

structure IpcStub where
  direction : IpcDirection
  events : List IpcEvent
  /-- The agents of each slot that was ever greeted. -/
  clients : List (PortSlotId × List String)

namespace IpcStub

def new (direction : IpcDirection) : IpcStub :=
  { direction := direction, events := [], clients := [] }

/-- `clients`, with the slot as its argument. -/
def clientsOf (s : IpcStub) (id : PortSlotId) : List String :=
  ((lookup Prod.fst s.clients id).map Prod.snd).getD []

def record (s : IpcStub) (event : IpcEvent) : IpcStub := { s with events := s.events ++ [event] }

def setClients (s : IpcStub) (id : PortSlotId) (agents : List String) : IpcStub :=
  { s with clients := upsert Prod.fst (id, agents) s.clients }

def listen (s : IpcStub) (port : McpPortConfig) : Except IpcError Unit × IpcStub :=
  if port.enabled = false then (.error (.portDisabled port.id), s)
  else
    match port.transport with
    | .unixSocket path => (.ok (), s.record (.listen port.id (some path)))
    | other =>
      (.error (.unsupportedTransport other),
        s.record (.failed port.id (IpcError.unsupportedTransport other).message))

def connect (s : IpcStub) (port : McpPortConfig) : Except IpcError Unit × IpcStub :=
  if port.enabled = false then (.error (.portDisabled port.id), s)
  else (.ok (), s.record (.connect port.id port.transport.socketPath))

/-- The slot's entry is made before the slot is seen to be full. -/
def handshake (s : IpcStub) (port : McpPortConfig) (agent : String) :
    Except IpcError Unit × IpcStub :=
  let agents := s.clientsOf port.id
  if port.maxClients ≤ agents.length then (.error (.portFull port.id), s.setClients port.id agents)
  else
    (.ok (), (s.setClients port.id (agents ++ [agent])).record (.handshake port.id agent))

def disconnect (s : IpcStub) (portSlot : PortSlotId) : IpcStub :=
  let popped :=
    match lookup Prod.fst s.clients portSlot with
    | some entry => s.setClients portSlot entry.2.dropLast
    | none => s
  popped.record (.disconnect portSlot)

/-! ## The agents after a call -/

@[simp] theorem clientsOf_record (s : IpcStub) (event : IpcEvent) (id : PortSlotId) :
    (s.record event).clientsOf id = s.clientsOf id := rfl

@[simp] theorem events_record (s : IpcStub) (event : IpcEvent) :
    (s.record event).events = s.events ++ [event] := rfl

@[simp] theorem events_setClients (s : IpcStub) (id : PortSlotId) (agents : List String) :
    (s.setClients id agents).events = s.events := rfl

@[simp] theorem clientsOf_setClients (s : IpcStub) (id : PortSlotId) (agents : List String)
    (id' : PortSlotId) :
    (s.setClients id agents).clientsOf id' = if id' = id then agents else s.clientsOf id' := by
  rw [clientsOf, setClients, lookup_upsert]
  split
  · rfl
  · rfl

theorem clientsOf_disconnect (s : IpcStub) (id id' : PortSlotId) :
    (s.disconnect id).clientsOf id' =
      if id' = id then (s.clientsOf id).dropLast else s.clientsOf id' := by
  rw [disconnect, clientsOf_record]
  split
  case h_1 entry h =>
    have hget : s.clientsOf id = entry.2 := by rw [clientsOf, h, Option.map_some, Option.getD_some]
    rw [clientsOf_setClients, hget]
  case h_2 h =>
    split
    case isTrue hid => rw [hid, clientsOf, h, Option.map_none, Option.getD_none, List.dropLast_nil]
    case isFalse => rfl

@[simp] theorem events_disconnect (s : IpcStub) (id : PortSlotId) :
    (s.disconnect id).events = s.events ++ [.disconnect id] := by
  rw [disconnect, events_record]
  split
  · rfl
  · rfl

theorem clientsOf_handshake_full {s : IpcStub} {port : McpPortConfig}
    (h : port.maxClients ≤ (s.clientsOf port.id).length) (agent : String) (id : PortSlotId) :
    (s.handshake port agent).2.clientsOf id = s.clientsOf id := by
  simp only [handshake, if_pos h, clientsOf_setClients]
  split
  case isTrue hid => rw [hid]
  case isFalse => rfl

theorem clientsOf_handshake_room {s : IpcStub} {port : McpPortConfig}
    (h : ¬ port.maxClients ≤ (s.clientsOf port.id).length) (agent : String) (id : PortSlotId) :
    (s.handshake port agent).2.clientsOf id =
      if id = port.id then s.clientsOf port.id ++ [agent] else s.clientsOf id := by
  simp only [handshake, if_neg h, clientsOf_record, clientsOf_setClients]

theorem clientsOf_listen (s : IpcStub) (port : McpPortConfig) (id : PortSlotId) :
    (s.listen port).2.clientsOf id = s.clientsOf id := by
  rw [listen]
  split
  · rfl
  · split
    · rfl
    · rfl

theorem clientsOf_connect (s : IpcStub) (port : McpPortConfig) (id : PortSlotId) :
    (s.connect port).2.clientsOf id = s.clientsOf id := by
  rw [connect]
  split
  · rfl
  · rfl

end IpcStub

/-! ## Runs of calls -/

/-- A call, with the configuration that the slot has then. -/
inductive IpcCall where
  | listen (port : McpPortConfig)
  | connect (port : McpPortConfig)
  | handshake (port : McpPortConfig) (agent : String)
  | disconnect (portSlot : PortSlotId)

def IpcEvent.isHandshake (id : PortSlotId) : IpcEvent → Bool
  | .handshake portSlot _ => decide (portSlot = id)
  | _ => false

def IpcEvent.isDisconnect (id : PortSlotId) : IpcEvent → Bool
  | .disconnect portSlot => decide (portSlot = id)
  | _ => false

namespace IpcStub

def handshakes (s : IpcStub) (id : PortSlotId) : ℕ := s.events.countP (IpcEvent.isHandshake id)

def disconnects (s : IpcStub) (id : PortSlotId) : ℕ := s.events.countP (IpcEvent.isDisconnect id)

def call (s : IpcStub) : IpcCall → Except IpcError Unit × IpcStub
  | .listen port => s.listen port
  | .connect port => s.connect port
  | .handshake port agent => s.handshake port agent
  | .disconnect portSlot => (.ok (), s.disconnect portSlot)

def afterCall (s : IpcStub) (c : IpcCall) : IpcStub := (s.call c).2

/-- The agents of every slot are as many as the log shows. -/
def Balanced (s : IpcStub) : Prop :=
  ∀ id, (s.clientsOf id).length + s.disconnects id = s.handshakes id

/-- What the module declares of one call. -/
structure Law (s : IpcStub) (c : IpcCall) : Prop where
  enabled : ∀ port agent, c = .handshake port agent → (s.call c).1 = .ok () → port.enabled = true
  bounded : ∀ port agent, c = .handshake port agent → (s.call c).1 = .ok () →
    ((s.afterCall c).clientsOf port.id).length ≤ port.maxClients
  failed : (s.call c).1 ≠ .ok () → ∀ id, (s.afterCall c).clientsOf id = s.clientsOf id
  balanced : (s.afterCall c).Balanced

/-- A greeting is for a slot that is enabled or full, and an agent that leaves is there. -/
def Allowed (s : IpcStub) : IpcCall → Prop
  | .handshake port _ => port.enabled = true ∨ port.maxClients ≤ (s.clientsOf port.id).length
  | .disconnect portSlot => s.clientsOf portSlot ≠ []
  | _ => True

theorem failed_call {s : IpcStub} {c : IpcCall} (h : (s.call c).1 ≠ .ok ()) (id : PortSlotId) :
    (s.afterCall c).clientsOf id = s.clientsOf id := by
  cases c with
  | listen port => exact clientsOf_listen s port id
  | connect port => exact clientsOf_connect s port id
  | handshake port agent =>
    by_cases hfull : port.maxClients ≤ (s.clientsOf port.id).length
    · exact clientsOf_handshake_full hfull agent id
    · refine absurd ?_ h
      simp only [call, handshake, if_neg hfull]
  | disconnect portSlot => exact absurd rfl h

theorem handshake_ok_iff {s : IpcStub} {port : McpPortConfig} {agent : String} :
    (s.handshake port agent).1 = .ok () ↔ ¬ port.maxClients ≤ (s.clientsOf port.id).length := by
  by_cases h : port.maxClients ≤ (s.clientsOf port.id).length
  · simp [handshake, h]
  · simp [handshake, h]

/-! ### The balance after a call -/

theorem Balanced.of_same {s s' : IpcStub} (h : s.Balanced)
    (hclients : ∀ id, s'.clientsOf id = s.clientsOf id)
    (hdisconnects : ∀ id, s'.disconnects id = s.disconnects id)
    (hhandshakes : ∀ id, s'.handshakes id = s.handshakes id) : s'.Balanced := by
  intro id
  rw [hclients, hdisconnects, hhandshakes]
  exact h id

/-- An event that is about no agent. -/
theorem Balanced.record {s : IpcStub} (h : s.Balanced) {event : IpcEvent}
    (hhandshake : ∀ id, event.isHandshake id = false)
    (hdisconnect : ∀ id, event.isDisconnect id = false) : (s.record event).Balanced := by
  refine h.of_same (fun id => rfl) (fun id => ?_) fun id => ?_
  · simp [disconnects, hdisconnect id]
  · simp [handshakes, hhandshake id]

theorem Balanced.listen {s : IpcStub} (h : s.Balanced) (port : McpPortConfig) :
    (s.listen port).2.Balanced := by
  rw [IpcStub.listen]
  split
  · exact h
  · split
    · exact h.record (fun _ => rfl) fun _ => rfl
    · exact h.record (fun _ => rfl) fun _ => rfl

theorem Balanced.connect {s : IpcStub} (h : s.Balanced) (port : McpPortConfig) :
    (s.connect port).2.Balanced := by
  rw [IpcStub.connect]
  split
  · exact h
  · exact h.record (fun _ => rfl) fun _ => rfl

theorem Balanced.handshake {s : IpcStub} (h : s.Balanced) (port : McpPortConfig) (agent : String) :
    (s.handshake port agent).2.Balanced := by
  by_cases hfull : port.maxClients ≤ (s.clientsOf port.id).length
  · refine h.of_same (clientsOf_handshake_full hfull agent) (fun id => ?_) fun id => ?_
    · simp only [disconnects, IpcStub.handshake, if_pos hfull, events_setClients]
    · simp only [handshakes, IpcStub.handshake, if_pos hfull, events_setClients]
  · intro id
    have hid := h id
    rw [clientsOf_handshake_room hfull]
    simp only [disconnects, handshakes, IpcStub.handshake, if_neg hfull, events_record,
      events_setClients, List.countP_append, List.countP_singleton, IpcEvent.isDisconnect,
      IpcEvent.isHandshake, decide_eq_true_eq, Bool.false_eq_true, if_false] at hid ⊢
    split
    case isTrue he =>
      rw [if_pos he.symm, ← he, List.length_append, List.length_singleton]
      omega
    case isFalse hne =>
      rw [if_neg fun he => hne he.symm]
      omega

/-- The log says that an agent left: it is right when there was one. -/
theorem balanced_disconnect_iff {s : IpcStub} (h : s.Balanced) (portSlot : PortSlotId) :
    (s.disconnect portSlot).Balanced ↔ s.clientsOf portSlot ≠ [] := by
  have hcount : ∀ id, ((s.disconnect portSlot).clientsOf id).length +
      (s.disconnect portSlot).disconnects id = (s.disconnect portSlot).handshakes id ↔
        (id = portSlot → s.clientsOf portSlot ≠ []) := by
    intro id
    have hid := h id
    simp only [disconnects, handshakes, clientsOf_disconnect, events_disconnect,
      List.countP_append, List.countP_singleton, IpcEvent.isDisconnect, IpcEvent.isHandshake,
      decide_eq_true_eq, Bool.false_eq_true, if_false] at hid ⊢
    by_cases he : id = portSlot
    · subst he
      rw [if_pos rfl, if_pos rfl, List.length_dropLast]
      cases hc : s.clientsOf id with
      | nil =>
        rw [hc] at hid
        simp only [List.length_nil] at hid ⊢
        simp
        omega
      | cons agent agents =>
        rw [hc] at hid
        simp only [List.length_cons] at hid ⊢
        simp
        omega
    · rw [if_neg he, if_neg fun h => he h.symm]
      simp only [he, false_implies, iff_true]
      omega
  constructor
  · intro hb
    exact (hcount portSlot).mp (hb portSlot) rfl
  · intro hne id
    exact (hcount id).mpr fun _ => hne

theorem law_iff_allowed {s : IpcStub} {c : IpcCall} (h : s.Balanced) : Law s c ↔ Allowed s c := by
  cases c with
  | listen port =>
    refine ⟨fun _ => trivial, fun _ => ⟨?_, ?_, failed_call, h.listen port⟩⟩
    · intro _ _ hc
      cases hc
    · intro _ _ hc
      cases hc
  | connect port =>
    refine ⟨fun _ => trivial, fun _ => ⟨?_, ?_, failed_call, h.connect port⟩⟩
    · intro _ _ hc
      cases hc
    · intro _ _ hc
      cases hc
  | handshake port agent =>
    constructor
    · intro hl
      by_cases hfull : port.maxClients ≤ (s.clientsOf port.id).length
      · exact .inr hfull
      · exact .inl (hl.enabled port agent rfl (handshake_ok_iff.mpr hfull))
    · intro ha
      refine ⟨?_, ?_, failed_call, h.handshake port agent⟩
      · intro _ _ hc hok
        cases hc
        exact ha.resolve_right (handshake_ok_iff.mp hok)
      · intro _ _ hc hok
        cases hc
        have hroom := handshake_ok_iff.mp hok
        rw [afterCall, call, clientsOf_handshake_room hroom, if_pos rfl, List.length_append,
          List.length_singleton]
        omega
  | disconnect portSlot =>
    constructor
    · intro hl
      exact (balanced_disconnect_iff h portSlot).mp hl.balanced
    · intro ha
      refine ⟨?_, ?_, failed_call, (balanced_disconnect_iff h portSlot).mpr ha⟩
      · intro _ _ hc
        cases hc
      · intro _ _ hc
        cases hc

theorem balanced_new (direction : IpcDirection) : (new direction).Balanced := fun _ => rfl

/-- From an empty stub, every call keeps the rules and the balance precisely when no disabled slot with
room is greeted and nobody leaves an empty slot. -/
theorem along_law_iff (direction : IpcDirection) (calls : List IpcCall) :
    Along afterCall Law (new direction) calls ↔ Along afterCall Allowed (new direction) calls :=
  along_iff_along (I := Balanced) (fun _ _ hs ha => ((law_iff_allowed hs).mpr ha).balanced)
    (fun _ _ hs => law_iff_allowed hs) (balanced_new direction)

/-- A slot as it is created, disabled, takes an agent. -/
theorem not_along_law :
    ¬ ∀ (direction : IpcDirection) (calls : List IpcCall),
      Along afterCall Law (new direction) calls := by
  intro h
  have hlaw := (h .listen [.handshake (.new 1 "/tmp/hikaru/hikaru-mcp-1.sock") "opencode"]).1
  have henabled := hlaw.enabled _ _ rfl (handshake_ok_iff.mpr (by decide))
  exact absurd henabled (by decide)

end IpcStub

end HikaruOpenLive.Mcp
