import Mathlib.Data.List.Basic
import ProbingBaselines.Lib.Dict
import ProbingBaselines.Lib.Run

/-!
# Agreement on the training port

The agents of a job look for a port that is free on every node. Each reports a free port until the
master answers with the decided port or with the start of the next search
(`elastic_agent/torch/training.py:1709-1756`); the master decides once all nodes have reported the
same port, and else begins a new round at the largest one
(`master/node/training_node.py:478-535`). In the system below a request may be handled at any time
after it was sent, more than once or never, and an answer may be lost.
-/

namespace ProbingBaselines.Dlrover

open Lib

/-- `SyncNodeTrainingPorts` (`training_node.py:463-466`). -/
structure SyncNodeTrainingPorts where
  trainingPort : Int
  nextCheckPort : Int
  deriving DecidableEq

/-- `TrainingNodeConfig` (`training_node.py:478-489`) without its external configuration. -/
structure TrainingNodeConfig where
  recvNodeTrainingPorts : Dict Int Int
  nodeTrainingPort : Int
  nextCheckNodeTrainingPort : Int
  nNode : Nat

/-- The loop over the received ports (`training_node.py:507-513`): `(min_port, max_port)`. -/
def portRange (recv : Dict Int Int) : Int × Int :=
  recv.values.foldl (fun (minPort, maxPort) recvPort ↦
    (if minPort = 0 ∨ minPort > recvPort then recvPort else minPort,
      if maxPort < recvPort then recvPort else maxPort)) (0, 0)

namespace TrainingNodeConfig

/-- `sync_node_training_port` (`training_node.py:491-535`): the answer and the new state. -/
def syncNodeTrainingPort (c : TrainingNodeConfig) (nodeId port : Int) :
    SyncNodeTrainingPorts × TrainingNodeConfig :=
  if c.nodeTrainingPort > 0 then (⟨c.nodeTrainingPort, 0⟩, c)
  else if port < c.nextCheckNodeTrainingPort then (⟨0, c.nextCheckNodeTrainingPort⟩, c)
  else
    let recv := c.recvNodeTrainingPorts.insert nodeId port
    if recv.items.length = c.nNode then
      let (minPort, maxPort) := portRange recv
      if minPort ≠ maxPort then
        (⟨0, maxPort⟩,
          { c with recvNodeTrainingPorts := .empty, nextCheckNodeTrainingPort := maxPort })
      else (⟨maxPort, 0⟩, { c with recvNodeTrainingPorts := recv, nodeTrainingPort := maxPort })
    else (⟨0, 0⟩, { c with recvNodeTrainingPorts := recv })

/-- The report completes a round in which the ports differ. -/
def RoundFails (c : TrainingNodeConfig) (nodeId port : Int) : Prop :=
  c.nodeTrainingPort ≤ 0 ∧ c.nextCheckNodeTrainingPort ≤ port ∧
    (c.recvNodeTrainingPorts.insert nodeId port).items.length = c.nNode ∧
    (portRange (c.recvNodeTrainingPorts.insert nodeId port)).1 ≠
      (portRange (c.recvNodeTrainingPorts.insert nodeId port)).2

instance (c : TrainingNodeConfig) (nodeId port : Int) : Decidable (c.RoundFails nodeId port) :=
  inferInstanceAs (Decidable (_ ∧ _))

end TrainingNodeConfig

inductive SyncStage where
  | polling
  | waiting
  | configured (port : Int)
  | stopped
  deriving DecidableEq

/-- The locals of `sync_training_ports`; a `port` of 0 has still to be looked for. -/
structure PortAgent where
  startPort : Int
  port : Int
  count : Nat
  stage : SyncStage

namespace PortAgent

/-- The head of the loop up to the request (`training.py:1730-1745`), with the port that
`find_free_port_for_hccl` yields. -/
def poll (a : PortAgent) (freePort : Int) : PortAgent :=
  if a.count ≥ 120 then { a with stage := .stopped }
  else
    let port := if a.port = 0 then freePort else a.port
    if port = 0 then { a with count := a.count + 1, stage := .stopped }
    else { a with count := a.count + 1, port := port, stage := .waiting }

/-- What the loop does with an answer (`training.py:1746-1756`); `none` is no answer. -/
def receive (a : PortAgent) : Option SyncNodeTrainingPorts → PortAgent
  | none => { a with stage := .polling }
  | some resp =>
    if resp.trainingPort > 0 then { a with stage := .configured resp.trainingPort }
    else if resp.nextCheckPort > 0 then
      { a with startPort := resp.nextCheckPort, port := 0, stage := .polling }
    else { a with stage := .polling }

end PortAgent

/-- A decided port with the reports handled since the last reset. -/
structure PortDecision where
  port : Int
  reports : List (Int × Int)

/-- The master and the agents by their node id. `requests` and `answers` hold everything sent;
`nextChecks` the values of `next_check_port`, one more after each failed round. -/
structure PortSystem where
  config : TrainingNodeConfig
  agents : Dict Int PortAgent
  requests : List (Int × Int)
  answers : List ((Int × Int) × SyncNodeTrainingPorts)
  reports : List (Int × Int)
  decisions : List PortDecision
  nextChecks : List Int

inductive PortAct where
  | start (nodeId startPort : Int)
  | poll (nodeId freePort : Int)
  | handle (nodeId port : Int)
  | receive (nodeId : Int) (resp : Option SyncNodeTrainingPorts)

namespace PortSystem

def init (n : Nat) : PortSystem := ⟨⟨.empty, 0, 0, n⟩, .empty, [], [], [], [], [0]⟩

/-- The master handles a request. -/
def handle (s : PortSystem) (nodeId port : Int) : PortSystem :=
  let (resp, config) := s.config.syncNodeTrainingPort nodeId port
  let reports := s.reports ++ [(nodeId, port)]
  let fails := s.config.RoundFails nodeId port
  { s with
    config := config
    answers := s.answers ++ [((nodeId, port), resp)]
    reports := if fails then [] else reports
    decisions :=
      if config.nodeTrainingPort = s.config.nodeTrainingPort then s.decisions
      else s.decisions ++ [⟨config.nodeTrainingPort, reports⟩]
    nextChecks :=
      if fails then s.nextChecks ++ [config.nextCheckNodeTrainingPort] else s.nextChecks }

/-- An agent starts with a positive port, finds a free port at or above its start or none, and
receives one of the answers to its request or none. -/
def step (s : PortSystem) : PortAct → Option PortSystem
  | .start nodeId startPort =>
    if 0 < startPort then
      some { s with agents := s.agents.insert nodeId ⟨startPort, 0, 0, .polling⟩ }
    else none
  | .poll nodeId freePort =>
    match s.agents.get? nodeId with
    | some a =>
      if a.stage = .polling ∧ (freePort = 0 ∨ a.startPort ≤ freePort) then
        let a := a.poll freePort
        some { s with
          agents := s.agents.insert nodeId a
          requests := if a.stage = .waiting then s.requests ++ [(nodeId, a.port)] else s.requests }
      else none
    | none => none
  | .handle nodeId port => if (nodeId, port) ∈ s.requests then some (s.handle nodeId port) else none
  | .receive nodeId resp =>
    match s.agents.get? nodeId with
    | some a =>
      if a.stage = .waiting ∧ ∀ r ∈ resp, ((nodeId, a.port), r) ∈ s.answers then
        some { s with agents := s.agents.insert nodeId (a.receive resp) }
      else none
    | none => none

/-- At most one port is decided, every positive answer and every configured agent has it, it was
reported by `n` nodes in its round, and `next_check_port` grows with each failed round. -/
structure Agreement (n : Nat) (s : PortSystem) : Prop where
  once : s.decisions.length ≤ 1
  answers : ∀ a ∈ s.answers, ∀ b ∈ s.answers, 0 < a.2.trainingPort → 0 < b.2.trainingPort →
    a.2.trainingPort = b.2.trainingPort
  decided : ∀ a ∈ s.answers, 0 < a.2.trainingPort → ∃ d ∈ s.decisions, d.port = a.2.trainingPort
  configured : ∀ e ∈ s.agents.items, ∀ port, e.2.stage = .configured port →
    ∃ d ∈ s.decisions, d.port = port
  reported : ∀ d ∈ s.decisions, ∃ ids : List Int, ids.Nodup ∧ ids.length = n ∧
    ∀ nodeId ∈ ids, (nodeId, d.port) ∈ d.reports
  grows : s.nextChecks.Pairwise (· < ·)

end PortSystem

/-! ### One request -/

/-- The smallest and the largest of the received ports are received ports. -/
theorem portRange_spec {recv : Dict Int Int} (positive : ∀ p ∈ recv.values, 0 < p)
    (some : recv.values ≠ []) :
    (portRange recv).1 ∈ recv.values ∧ (portRange recv).2 ∈ recv.values ∧
      ∀ p ∈ recv.values, (portRange recv).1 ≤ p ∧ p ≤ (portRange recv).2 := by
  rw [portRange]
  generalize recv.values = ports at *
  induction ports using List.reverseRecOn with
  | nil => contradiction
  | append_singleton ports p ih =>
    have last : 0 < p := positive p (by simp)
    rw [List.foldl_concat]
    by_cases first : ports = []
    · subst first
      simp [last]
    · rcases ih (fun q hq ↦ positive q (by simp [hq])) first with ⟨low, high, bounds⟩
      generalize ports.foldl _ _ = range at low high bounds ⊢
      have lowPositive := positive _ (List.mem_append_left [p] low)
      refine ⟨?_, ?_, ?_⟩
      · simp only [List.mem_append, List.mem_singleton]
        split
        · exact .inr rfl
        · exact .inl low
      · simp only [List.mem_append, List.mem_singleton]
        split
        · exact .inr rfl
        · exact .inl high
      · intro q hq
        simp only [List.mem_append, List.mem_singleton] at hq
        rcases hq with hq | rfl
        · have := bounds q hq
          constructor <;> split <;> omega
        · constructor <;> split <;> omega

namespace TrainingNodeConfig

/-- The branches of `sync_node_training_port`. -/
inductive SyncCase (c : TrainingNodeConfig) (nodeId port : Int) :
    SyncNodeTrainingPorts × TrainingNodeConfig → Prop where
  | decided (h : c.nodeTrainingPort > 0) : SyncCase c nodeId port (⟨c.nodeTrainingPort, 0⟩, c)
  | behind (h : port < c.nextCheckNodeTrainingPort) :
    SyncCase c nodeId port (⟨0, c.nextCheckNodeTrainingPort⟩, c)
  | recorded (h : c.nextCheckNodeTrainingPort ≤ port) :
    SyncCase c nodeId port (⟨0, 0⟩,
      { c with recvNodeTrainingPorts := c.recvNodeTrainingPorts.insert nodeId port })
  | agreed (h : c.nextCheckNodeTrainingPort ≤ port) (undecided : c.nodeTrainingPort ≤ 0)
    (full : (c.recvNodeTrainingPorts.insert nodeId port).items.length = c.nNode)
    (same : (portRange (c.recvNodeTrainingPorts.insert nodeId port)).1 =
      (portRange (c.recvNodeTrainingPorts.insert nodeId port)).2) :
    SyncCase c nodeId port
      (⟨(portRange (c.recvNodeTrainingPorts.insert nodeId port)).2, 0⟩,
        { c with
          recvNodeTrainingPorts := c.recvNodeTrainingPorts.insert nodeId port
          nodeTrainingPort := (portRange (c.recvNodeTrainingPorts.insert nodeId port)).2 })

theorem syncNodeTrainingPort_fails {c : TrainingNodeConfig} {nodeId port : Int}
    (h : c.RoundFails nodeId port) :
    c.syncNodeTrainingPort nodeId port =
      (⟨0, (portRange (c.recvNodeTrainingPorts.insert nodeId port)).2⟩,
        { c with
          recvNodeTrainingPorts := .empty
          nextCheckNodeTrainingPort :=
            (portRange (c.recvNodeTrainingPorts.insert nodeId port)).2 }) := by
  rcases h with ⟨undecided, reached, full, differ⟩
  rw [syncNodeTrainingPort, if_neg (by omega), if_neg (by omega)]
  simp only [full, differ, if_true, ne_eq, not_false_eq_true]

theorem syncNodeTrainingPort_cases {c : TrainingNodeConfig} {nodeId port : Int}
    (h : ¬ c.RoundFails nodeId port) :
    c.SyncCase nodeId port (c.syncNodeTrainingPort nodeId port) := by
  rw [syncNodeTrainingPort]
  split
  · next decided => exact .decided decided
  · next undecided =>
    split
    · next behind => exact .behind behind
    · next reached =>
      simp only
      split
      · next full =>
        have same : (portRange (c.recvNodeTrainingPorts.insert nodeId port)).1 =
            (portRange (c.recvNodeTrainingPorts.insert nodeId port)).2 := by
          by_contra differ
          exact h ⟨by omega, by omega, full, differ⟩
        rw [if_neg (not_not_intro same)]
        exact .agreed (by omega) (by omega) full same
      · exact .recorded (by omega)

end TrainingNodeConfig

/-! ### What holds of every run -/

namespace PortSystem

/-- The received ports were reported in this round and reach its start. -/
structure Round (s : PortSystem) : Prop where
  requested : ∀ e ∈ s.requests, 0 < e.2
  recv : ∀ e ∈ s.config.recvNodeTrainingPorts.items,
    0 < e.2 ∧ s.config.nextCheckNodeTrainingPort ≤ e.2 ∧ e ∈ s.reports
  last : s.nextChecks.getLast? = some s.config.nextCheckNodeTrainingPort
  grows : s.nextChecks.Pairwise (· < ·)

/-- There is one decision exactly if the master has a port, and it was reported by `n` nodes. -/
structure Decided (n : Nat) (s : PortSystem) : Prop where
  size : s.config.nNode = n
  decisions : (s.config.nodeTrainingPort = 0 ∧ s.decisions = []) ∨
    0 < s.config.nodeTrainingPort ∧
      ∃ reports, s.decisions = [⟨s.config.nodeTrainingPort, reports⟩] ∧
      ∃ ids : List Int, ids.Nodup ∧ ids.length = n ∧
        ∀ nodeId ∈ ids, (nodeId, s.config.nodeTrainingPort) ∈ reports
  answers : ∀ a ∈ s.answers, 0 < a.2.trainingPort → a.2.trainingPort = s.config.nodeTrainingPort

/-- What an agent knows: a positive start, no negative port, and no other port than the master's
once it is configured. -/
def Follows (c : TrainingNodeConfig) (a : PortAgent) : Prop :=
  0 < a.startPort ∧ 0 ≤ a.port ∧
    ∀ port, a.stage = .configured port → 0 < port ∧ port = c.nodeTrainingPort

structure Sound (n : Nat) (s : PortSystem) : Prop where
  round : s.Round
  decided : s.Decided n
  agents : ∀ e ∈ s.agents.items, Follows s.config e.2

/-- The table after one more report of this round. -/
theorem recv_insert {s : PortSystem} (nodeId : Int) {port : Int} (h : s.Round) (positive : 0 < port)
    (reached : s.config.nextCheckNodeTrainingPort ≤ port) :
    ∀ e ∈ (s.config.recvNodeTrainingPorts.insert nodeId port).items,
      0 < e.2 ∧ s.config.nextCheckNodeTrainingPort ≤ e.2 ∧ e ∈ s.reports ++ [(nodeId, port)] := by
  rintro ⟨id, p⟩ mem
  rcases Dict.mem_items_insert.mp mem with ⟨rfl, rfl⟩ | ⟨-, old⟩
  · exact ⟨positive, reached, by simp⟩
  · rcases h.recv _ old with ⟨pos, above, reported⟩
    exact ⟨pos, above, List.mem_append_left _ reported⟩

/-- The range of the ports of a table that holds at least one report. -/
theorem range_insert {s : PortSystem} (nodeId : Int) {port : Int} (h : s.Round)
    (positive : 0 < port)
    (reached : s.config.nextCheckNodeTrainingPort ≤ port) :
    let recv := s.config.recvNodeTrainingPorts.insert nodeId port
    (portRange recv).1 ∈ recv.values ∧ (portRange recv).2 ∈ recv.values ∧
      ∀ p ∈ recv.values, (portRange recv).1 ≤ p ∧ p ≤ (portRange recv).2 := by
  intro recv
  apply portRange_spec
  · intro p hp
    rcases List.mem_map.mp hp with ⟨e, he, rfl⟩
    exact (recv_insert nodeId h positive reached e he).1
  · intro none
    have known : nodeId ∈ recv := Dict.mem_insert.mpr (.inl rfl)
    rcases Dict.mem_iff.mp known with ⟨v, hv⟩
    have mem : v ∈ recv.values := List.mem_map_of_mem (f := Prod.snd) hv
    rw [none] at mem
    contradiction

/-- A failed round empties the table and begins above its start. -/
theorem handle_fails {s : PortSystem} {nodeId port : Int} (positive : 0 < port) (h : s.Round)
    (fails : s.config.RoundFails nodeId port) : (s.handle nodeId port).Round := by
  have sync := TrainingNodeConfig.syncNodeTrainingPort_fails fails
  rcases range_insert nodeId h positive fails.2.1 with ⟨low, high, bounds⟩
  have reached := recv_insert nodeId h positive fails.2.1
  have above : s.config.nextCheckNodeTrainingPort <
      (portRange (s.config.recvNodeTrainingPorts.insert nodeId port)).2 := by
    rcases List.mem_map.mp low with ⟨e, he, eq⟩
    have start := (reached e he).2.1
    have order := (bounds _ high).1
    have differ := fails.2.2.2
    rw [eq] at start
    omega
  constructor
  · exact h.requested
  · simp [handle, sync]
  · simp [handle, sync, fails]
  · simp only [handle, sync, if_pos fails]
    rw [List.pairwise_append]
    refine ⟨h.grows, List.pairwise_singleton _ _, ?_⟩
    intro a ha b hb
    rw [List.mem_singleton.mp hb]
    rcases List.getLast?_eq_some_iff.mp h.last with ⟨front, eq⟩
    have grows := h.grows
    rw [eq, List.pairwise_append] at grows
    rw [eq, List.mem_append] at ha
    rcases ha with ha | ha
    · have := grows.2.2 a ha _ (List.mem_singleton_self _)
      omega
    · rw [List.mem_singleton.mp ha]
      exact above

theorem handle_round {s : PortSystem} {nodeId port : Int} (positive : 0 < port) (h : s.Round) :
    (s.handle nodeId port).Round := by
  by_cases fails : s.config.RoundFails nodeId port
  · exact handle_fails positive h fails
  · have sync := TrainingNodeConfig.syncNodeTrainingPort_cases fails
    constructor
    · exact h.requested
    · show ∀ e ∈ (s.config.syncNodeTrainingPort nodeId port).2.recvNodeTrainingPorts.items,
        0 < e.2 ∧ (s.config.syncNodeTrainingPort nodeId port).2.nextCheckNodeTrainingPort ≤ e.2 ∧
          e ∈ if s.config.RoundFails nodeId port then [] else s.reports ++ [(nodeId, port)]
      rw [if_neg fails]
      generalize s.config.syncNodeTrainingPort nodeId port = result at sync
      cases sync with
      | decided _ | behind _ =>
        intro e he
        rcases h.recv e he with ⟨pos, above, reported⟩
        exact ⟨pos, above, List.mem_append_left _ reported⟩
      | recorded reached | agreed reached _ _ _ => exact recv_insert nodeId h positive reached
    · have next : (s.config.syncNodeTrainingPort nodeId port).2.nextCheckNodeTrainingPort =
          s.config.nextCheckNodeTrainingPort := by
        generalize s.config.syncNodeTrainingPort nodeId port = result at sync
        cases sync <;> rfl
      simp only [handle, if_neg fails, next]
      exact h.last
    · simp only [handle, if_neg fails]
      exact h.grows

/-- The master decides for the port that all `n` nodes reported, and keeps to it. -/
theorem handle_decided {n : Nat} {s : PortSystem} {nodeId port : Int} (positive : 0 < port)
    (round : s.Round) (h : s.Decided n) : (s.handle nodeId port).Decided n := by
  by_cases fails : s.config.RoundFails nodeId port
  · have sync := TrainingNodeConfig.syncNodeTrainingPort_fails fails
    constructor
    · simp only [handle, sync, h.size]
    · simp only [handle, sync, if_true]
      exact h.decisions
    · simp only [handle, sync, List.mem_append, List.mem_singleton]
      rintro a (old | rfl) pos
      · exact h.answers a old pos
      · contradiction
  · have sync := TrainingNodeConfig.syncNodeTrainingPort_cases fails
    generalize out : s.config.syncNodeTrainingPort nodeId port = result at sync
    cases sync with
    | decided _ | behind _ | recorded _ =>
      constructor
      · simp only [handle, out, h.size]
      · simp only [handle, out, if_true]
        exact h.decisions
      · simp only [handle, out, List.mem_append, List.mem_singleton]
        rintro a (old | rfl) pos
        · exact h.answers a old pos
        · first | rfl | contradiction
    | agreed reached undecided full same =>
      rcases range_insert nodeId round positive reached with ⟨low, high, bounds⟩
      generalize range : portRange (s.config.recvNodeTrainingPorts.insert nodeId port) = r at *
      have all : ∀ e ∈ (s.config.recvNodeTrainingPorts.insert nodeId port).items, e.2 = r.2 := by
        intro e he
        have := bounds e.2 (List.mem_map_of_mem he)
        omega
      have pos : 0 < r.2 := by
        rcases List.mem_map.mp high with ⟨e, he, eq⟩
        rw [← eq]
        exact (recv_insert nodeId round positive reached e he).1
      rcases h.decisions with ⟨zero, none⟩ | ⟨decided, -⟩
      · constructor
        · simp only [handle, out, h.size]
        · right
          refine ⟨by simpa [handle, out] using pos, s.reports ++ [(nodeId, port)], ?_, ?_⟩
          · have new : r.2 ≠ s.config.nodeTrainingPort := by omega
            simp [handle, out, new, none]
          · refine ⟨(s.config.recvNodeTrainingPorts.insert nodeId port).keys, Dict.keys_nodup _, ?_,
              ?_⟩
            · rw [Dict.keys, List.length_map, full, h.size]
            · intro id known
              rcases Dict.mem_iff.mp known with ⟨p, hp⟩
              have value := all _ hp
              simp only at value
              simp only [handle, out, ← value]
              exact (recv_insert nodeId round positive reached _ hp).2.2
        · simp only [handle, out, List.mem_append, List.mem_singleton]
          rintro a (old | rfl) answered
          · have := h.answers a old answered
            omega
          · rfl
      · omega

/-- A decision never changes the port of an agent that is configured. -/
theorem handle_port {s : PortSystem} {nodeId port : Int}
    (decided : 0 < s.config.nodeTrainingPort) :
    (s.handle nodeId port).config.nodeTrainingPort = s.config.nodeTrainingPort := by
  simp only [handle, TrainingNodeConfig.syncNodeTrainingPort, if_pos decided]

theorem poll_follows {c : TrainingNodeConfig} {a : PortAgent} {freePort : Int}
    (free : freePort = 0 ∨ a.startPort ≤ freePort) (h : Follows c a) :
    Follows c (a.poll freePort) ∧
      ((a.poll freePort).stage = .waiting → 0 < (a.poll freePort).port) := by
  rcases h with ⟨start, port, configured⟩
  simp only [PortAgent.poll]
  split
  · exact ⟨⟨start, port, by simp⟩, by simp⟩
  · split
    · split
      · exact ⟨⟨start, port, by simp⟩, by simp⟩
      · exact ⟨⟨start, by simp only; omega, by simp⟩, by simp only; omega⟩
    · exact ⟨⟨start, port, by simp⟩, by simp only; omega⟩

theorem receive_follows {n : Nat} {s : PortSystem} {nodeId : Int} {a : PortAgent}
    {resp : Option SyncNodeTrainingPorts} (answered : ∀ r ∈ resp, ((nodeId, a.port), r) ∈ s.answers)
    (decided : s.Decided n) (h : Follows s.config a) : Follows s.config (a.receive resp) := by
  rcases h with ⟨start, port, configured⟩
  cases resp with
  | none => exact ⟨start, port, by simp [PortAgent.receive]⟩
  | some r =>
    simp only [PortAgent.receive]
    split
    · next positive =>
      refine ⟨start, port, ?_⟩
      rintro p ⟨⟩
      exact ⟨positive, decided.answers _ (answered r rfl) positive⟩
    · split
      · next next => exact ⟨next, by simp, by simp⟩
      · exact ⟨start, port, by simp⟩

/-- An agent's record is replaced by one that follows the master. -/
theorem agents_insert {c : TrainingNodeConfig} {agents : Dict Int PortAgent} {nodeId : Int}
    {a : PortAgent} (h : ∀ e ∈ agents.items, Follows c e.2) (ha : Follows c a) :
    ∀ e ∈ (agents.insert nodeId a).items, Follows c e.2 := by
  rintro ⟨id, b⟩ mem
  rcases Dict.mem_items_insert.mp mem with ⟨-, rfl⟩ | ⟨-, old⟩
  · exact ha
  · exact h _ old

theorem step_sound {n : Nat} {s t : PortSystem} {a : PortAct} (taken : s.step a = some t)
    (h : s.Sound n) : t.Sound n := by
  rcases h with ⟨round, decided, agents⟩
  cases a with
  | start nodeId startPort =>
    simp only [step] at taken
    split at taken
    · next positive =>
      cases taken
      have fresh : Follows s.config ⟨startPort, 0, 0, .polling⟩ :=
        ⟨positive, Int.le_refl _, by simp⟩
      exact ⟨⟨round.requested, round.recv, round.last, round.grows⟩,
        ⟨decided.size, decided.decisions, decided.answers⟩, agents_insert agents fresh⟩
    · contradiction
  | poll nodeId freePort =>
    simp only [step] at taken
    split at taken
    · next a known =>
      split at taken
      · next polls =>
        cases taken
        have follows := agents _ (Dict.get?_eq_some_iff.mp known)
        rcases poll_follows polls.2 follows with ⟨still, positive⟩
        refine ⟨⟨?_, round.recv, round.last, round.grows⟩,
          ⟨decided.size, decided.decisions, decided.answers⟩, agents_insert agents still⟩
        simp only
        split
        · next waits =>
          simp only [List.mem_append, List.mem_singleton]
          rintro e (old | rfl)
          · exact round.requested e old
          · exact positive waits
        · exact round.requested
      · contradiction
    · contradiction
  | handle nodeId port =>
    simp only [step] at taken
    split at taken
    · next sent =>
      cases taken
      have positive := round.requested _ sent
      refine ⟨handle_round positive round, handle_decided positive round decided, ?_⟩
      intro e he
      rcases agents e he with ⟨start, port, configured⟩
      refine ⟨start, port, ?_⟩
      intro p stage
      rcases configured p stage with ⟨pos, eq⟩
      rw [handle_port (eq ▸ pos)]
      exact ⟨pos, eq⟩
    · contradiction
  | receive nodeId resp =>
    simp only [step] at taken
    split at taken
    · next a known =>
      split at taken
      · next waits =>
        cases taken
        have follows := agents _ (Dict.get?_eq_some_iff.mp known)
        have still := receive_follows waits.2 decided follows
        exact ⟨⟨round.requested, round.recv, round.last, round.grows⟩,
          ⟨decided.size, decided.decisions, decided.answers⟩, agents_insert agents still⟩
      · contradiction
    · contradiction

theorem run_sound {n : Nat} {s : PortSystem} {acts : List PortAct}
    (run : Run step anyStep (init n) acts s) : s.Sound n := by
  apply run.invariant (P := Sound n)
  · constructor
    · exact ⟨by simp [init], by simp [init], rfl, List.pairwise_singleton _ _⟩
    · exact ⟨rfl, .inl ⟨rfl, rfl⟩, by simp [init]⟩
    · simp [init]
  · intro t u a h _ taken
    exact step_sound taken h

theorem Sound.agreement {n : Nat} {s : PortSystem} (h : s.Sound n) : s.Agreement n := by
  rcases h with ⟨round, decided, agents⟩
  have found : 0 < s.config.nodeTrainingPort →
      ∃ d ∈ s.decisions, d.port = s.config.nodeTrainingPort := by
    intro positive
    rcases decided.decisions with ⟨zero, -⟩ | ⟨-, reports, eq, -⟩
    · omega
    · rw [eq]
      exact ⟨_, List.mem_singleton_self _, rfl⟩
  constructor
  · rcases decided.decisions with ⟨-, eq⟩ | ⟨-, reports, eq, -⟩ <;> simp [eq]
  · intro a ha b hb pa pb
    rw [decided.answers a ha pa, decided.answers b hb pb]
  · intro a ha positive
    have eq := decided.answers a ha positive
    rw [eq]
    exact found (eq ▸ positive)
  · intro e he port stage
    rcases (agents e he).2.2 port stage with ⟨positive, rfl⟩
    exact found positive
  · intro d hd
    rcases decided.decisions with ⟨-, eq⟩ | ⟨-, reports, eq, ids, nodup, size, reported⟩
    · rw [eq] at hd
      contradiction
    · rw [eq] at hd
      rw [List.mem_singleton.mp hd]
      exact ⟨ids, nodup, size, reported⟩
  · exact round.grows

/-- In every run the master decides at most one port, which `n` nodes have reported since the last
reset, all positive answers are that port, and each failed round begins at a larger port. -/
theorem syncTrainingPorts_agreement {n : Nat} {s : PortSystem} {acts : List PortAct}
    (run : Run step anyStep (init n) acts s) : s.Agreement n :=
  (run_sound run).agreement

/-- Two nodes that find different ports, and agree in the second round. -/
theorem syncTrainingPorts_agreement_run :
    ∃ s : PortSystem, s.Agreement 2 ∧ s.decisions.map PortDecision.port = [64] ∧
      s.nextChecks = [0, 64] := by
  have run : Run step anyStep (init 2)
      [.start 0 60, .start 1 60, .poll 0 60, .poll 1 64, .handle 1 64, .receive 1 (some ⟨0, 0⟩),
        .handle 0 60, .receive 0 (some ⟨0, 64⟩), .poll 0 64, .handle 0 64, .poll 1 64, .handle 0 60,
        .receive 0 none, .handle 1 64, .receive 1 (some ⟨64, 0⟩)] _ := run_of_foldlM rfl
  exact ⟨_, syncTrainingPorts_agreement run, rfl, rfl⟩

end PortSystem

end ProbingBaselines.Dlrover
