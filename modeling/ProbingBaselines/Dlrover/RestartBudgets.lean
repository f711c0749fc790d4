import ProbingBaselines.Dlrover.PrimeBooks

/-!
# Restart budgets of the prime manager

`node_max_restart` is tested before a relaunch, but the nodes are counted when `relaunch_nodes_impl`
has answered (`manager.py:384-434`): a batch may be larger than what is left, and two relaunches in
flight both see the old count. The job restarts and the restarts of an actor are counted before they
are carried out (`manager.py:272-290`, `manager.py:527-533`), so their limits hold. `removed_nodes`
keeps a node that was not relaunched when a relaunch is cancelled before the answer, when that of a
node group times out, or when that of a node group is refused or not tried after a timeout.
-/

namespace ProbingBaselines.Dlrover

open Lib

variable {V R N : Type}

namespace PrimeFrame

/-- The nodes for which the frame awaits the answer of `relaunch_nodes_impl`. -/
def asked : PrimeFrame V N → List N
  | .relaunchNodes nodes _ .asked => nodes
  | _ => []

/-- The nodes whose timed-out relaunch is about to become one of their group. -/
def regrouped : PrimeFrame V N → Option PrimeError → List N
  | .relaunchSingle _ (.relaunched node), some .timeout => [node]
  | .relaunchGroup nodes .start, none | .relaunchNodes nodes true .start, none => nodes
  | _, _ => []

theorem asked_of_first {f : PrimeFrame V N} (first : f.routine = f) : f.asked = [] := by
  cases f with
  | relaunchNodes nodes group place =>
    cases place with
    | start => rfl
    | _ => cases first
  | _ => rfl

end PrimeFrame

/-- `_relaunch_nodes` takes over a group only when it is called. -/
theorem regrouped_relaunchNodes (nodes : List N) (group : Bool) (place : RelaunchAt)
    (sig : Option PrimeError) (entered : place = .start → sig ≠ none) :
    (PrimeFrame.relaunchNodes (V := V) nodes group place).regrouped sig = [] := by
  cases place with
  | start =>
    cases sig with
    | none => exact absurd rfl (entered rfl)
    | some e => cases group <;> rfl
  | asked | waiting => cases group <;> cases sig <;> rfl

/-- A coroutine other than `_relaunch_nodes` asks for no nodes itself. -/
theorem NextCase.asked {f : PrimeFrame V N} {sig : Option PrimeError}
    {next : Next (PrimeFrame V N) PrimeError} (h : NextCase f sig next)
    (other : ∀ nodes group place, f ≠ .relaunchNodes nodes group place) :
    f.asked = [] ∧ ∀ f' ∈ next.frames, f'.asked = [] := by
  have none : ∀ {f' : PrimeFrame V N}, f'.routine = f.routine → f'.asked = [] := by
    intro f' same
    cases f' with
    | relaunchNodes nodes group place =>
      cases f with
      | relaunchNodes nodes' group' place' => exact absurd rfl (other nodes' group' place')
      | _ => contradiction
    | _ => rfl
  refine ⟨none rfl, fun f' mem ↦ ?_⟩
  rcases h.routine_of_mem mem with same | first
  · exact none same
  · exact PrimeFrame.asked_of_first first

theorem mem_getNodeGroup [DecidableEq N] (target : N) (rayNodes : List (N × String)) :
    target ∈ getNodeGroup target rayNodes := by
  rw [getNodeGroup]
  cases found : rayNodes.find? fun n ↦ n.1 = target with
  | none => simp
  | some n =>
    by_cases unlabelled : n.2 = ""
    · simp [unlabelled]
    · have self : n.1 = target := by simpa using List.find?_some found
      rw [Option.elim_some, if_neg unlabelled]
      apply List.mem_map.mpr
      refine ⟨n, List.mem_filter.mpr ⟨List.mem_of_find?_eq_some found, ?_⟩, self⟩
      simp

/-- What the counts say of the restarts so far. -/
structure PrimeBooks.Accounts (job : PrimeJob V R) (b : PrimeBooks V R N) : Prop where
  nodes : b.relaunchedNodes.length ≤ b.nodeRestartCount
  jobs : b.jobRestarts ≤ b.jobRestartCount
  jobMax : b.jobRestarts ≤ job.jobMaxRestart
  actors : ∀ v, b.actorRestarts v ≤ b.restartCount v
  actorMax : ∀ v, b.actorRestarts v ≤ job.maxRestart v

/-- Books within the budgets, with no relaunch under way. -/
structure PrimeBooks.Settled (job : PrimeJob V R) (b : PrimeBooks V R N) : Prop where
  accounts : b.Accounts job
  nodes : b.nodeRestartCount ≤ job.nodeMaxRestart
  removed : ∀ n ∈ b.removedNodes, n ∈ b.relaunchedNodes

namespace PrimeManager

section

variable [DecidableEq N] {job : PrimeJob V R} {s : PrimeManager V R N}

/-- The nodes are not removed, or were relaunched. -/
def accounted (s : PrimeManager V R N) (nodes : List N) : Bool :=
  nodes.all fun n ↦ n ∉ s.removedNodes || n ∈ s.relaunchedNodes

/-- The relaunch stays within what is left of the budget, with `inFlight` nodes being asked for, and
no node stays removed for a relaunch that has ended without it. -/
def keepsBudget (job : PrimeJob V R) (s : PrimeManager V R N) (inFlight : Nat) :
    PrimeFrame V N → Option PrimeError → PrimeInput N → Bool
  | .relaunchNodes nodes group .start, none, input =>
    if s.nodeRestartCount ≥ job.nodeMaxRestart then !group || s.accounted nodes
    else input.fails || s.nodeRestartCount + inFlight + nodes.length ≤ job.nodeMaxRestart
  | .relaunchNodes nodes _ .asked, some .cancelled, _
  | .relaunchNodes nodes true .asked, some .timeout, _ => s.accounted nodes
  | .relaunchSingle _ (.relaunched node), some .timeout, input => !input.fails || s.accounted [node]
  | _, _, _ => true

theorem keepsBudget_start {nodes : List N} {group : Bool} {input : PrimeInput N} {inFlight : Nat} :
    s.keepsBudget job inFlight (.relaunchNodes nodes group .start) none input =
      if s.nodeRestartCount ≥ job.nodeMaxRestart then !group || s.accounted nodes
      else input.fails || s.nodeRestartCount + inFlight + nodes.length ≤ job.nodeMaxRestart :=
  rfl

theorem keepsBudget_timeout {actor : V} {node : N} {input : PrimeInput N} {inFlight : Nat} :
    s.keepsBudget job inFlight (.relaunchSingle actor (.relaunched node)) (some .timeout) input =
      (!input.fails || s.accounted [node]) :=
  rfl

/-- `_relaunch_nodes` asks for no more nodes than are left, and counts those that it has asked for.
-/
theorem execRelaunchNodes_nodes {nodes : List N} {group : Bool} {place : RelaunchAt}
    {sig : Option PrimeError} {input : PrimeInput N} {inFlight : Nat}
    (meets : s.keepsBudget job inFlight (.relaunchNodes nodes group place) sig input = true)
    (allowed : s.allows (.relaunchNodes nodes group place : PrimeFrame V N) sig input = true)
    (within : s.nodeRestartCount + inFlight ≤ job.nodeMaxRestart) :
    (s.execRelaunchNodes job nodes group place sig input).data.nodeRestartCount +
      ((s.execRelaunchNodes job nodes group place sig input).next.frames.map
        (·.asked.length)).sum + inFlight ≤
      job.nodeMaxRestart + (PrimeFrame.relaunchNodes (V := V) nodes group place).asked.length := by
  cases sig with
  | some e =>
    have ended : ((s.execRelaunchNodes job nodes group place (some e) input).next.frames.map
        (·.asked.length)).sum = 0 := by
      cases e <;> cases place <;> rfl
    have same : (s.execRelaunchNodes job nodes group place (some e) input).data.nodeRestartCount =
        s.nodeRestartCount := by
      cases e <;> cases place <;> rfl
    omega
  | none =>
    cases place with
    | start =>
      rw [keepsBudget_start] at meets
      simp only [execRelaunchNodes]
      split
      · have same : (s.requestStop 1).nodeRestartCount = s.nodeRestartCount :=
          congrArg PrimeBooks.nodeRestartCount (s.books_requestStop 1)
        simpa [Next.frames, PrimeFrame.asked, same] using within
      · next left =>
        rw [if_neg left] at meets
        split
        · simpa [Next.frames, PrimeFrame.asked, discardNodes] using within
        · next asks =>
          have fits : s.nodeRestartCount + inFlight + nodes.length ≤ job.nodeMaxRestart := by
            simpa [asks] using meets
          simp only [Next.frames, PrimeFrame.asked, List.map_cons, List.map_nil, List.sum_cons,
            List.sum_nil, List.length_nil]
          omega
    | asked =>
      have answer : input.relaunched.length ≤ nodes.length := by
        have sublist : input.relaunched.isSublist nodes = true := allowed
        exact (List.isSublist_iff_sublist.mp sublist).length_le
      simp only [execRelaunchNodes]
      split
      all_goals
        simp only [Next.frames, PrimeFrame.asked, discardNodes, List.map_cons, List.map_nil,
          List.sum_cons, List.sum_nil, List.length_nil]
        omega
    | waiting => simpa [execRelaunchNodes, Next.frames, PrimeFrame.asked] using within

/-- Why a node may be removed after a frame: it was relaunched, or removed before for another reason
than the frame, or the frame asks for it or has handed its relaunch to the next frame. -/
def StaysRemoved (s : PrimeManager V R N) (f : PrimeFrame V N) (sig : Option PrimeError)
    (rest : List (PrimeFrame V N)) (o : PrimeOutcome V R N) (n : N) : Prop :=
  n ∈ o.data.relaunchedNodes ∨
    (n ∈ s.removedNodes ∧ n ∉ f.asked ∧ n ∉ f.regrouped sig) ∨
    (∃ g ∈ o.next.frames, n ∈ g.asked) ∨
    ∃ g stack sig', o.next.frames ++ rest = g :: stack ∧ o.next.signal = some sig' ∧
      n ∈ g.regrouped sig'

theorem removed_of_accounted {nodes : List N} {n : N} (h : s.accounted nodes = true)
    (mem : n ∈ nodes) (removed : n ∈ s.removedNodes) : n ∈ s.relaunchedNodes := by
  have known := List.all_eq_true.mp h n mem
  simpa [removed] using known

theorem mem_discardNodes {nodes : List N} {n : N} :
    n ∈ (s.discardNodes nodes).removedNodes ↔ n ∈ s.removedNodes ∧ n ∉ nodes := by
  simp [discardNodes]

/-- A relaunch that is refused leaves a group's nodes as they were; one that is not owns its nodes.
-/
theorem enterRelaunchNodes_removed {nodes : List N} {group : Bool} {input : PrimeInput N}
    {inFlight : Nat} {rest : List (PrimeFrame V N)}
    (meets : s.keepsBudget job inFlight (.relaunchNodes nodes group .start : PrimeFrame V N) none
      input = true) {n : N}
    (removed : n ∈ (s.execRelaunchNodes job nodes group .start none input).data.removedNodes) :
    StaysRemoved s (.relaunchNodes nodes group .start) none rest
      (s.execRelaunchNodes job nodes group .start none input) n := by
  have other : n ∉ nodes →
      n ∉ (PrimeFrame.relaunchNodes (V := V) nodes group .start).regrouped none := by
    intro absent
    cases group with
    | true => exact absent
    | false => exact List.not_mem_nil
  by_cases refused : s.nodeRestartCount ≥ job.nodeMaxRestart
  · have same := s.books_requestStop 1
    have kept : n ∈ s.removedNodes := by
      rw [execRelaunchNodes, if_pos refused] at removed
      have eq : (s.requestStop 1).removedNodes = s.removedNodes :=
        congrArg PrimeBooks.removedNodes same
      exact eq ▸ removed
    by_cases mem : n ∈ nodes ∧ group = true
    · have accounted : s.accounted nodes = true := by
        simpa [keepsBudget_start, refused, mem.2] using meets
      apply Or.inl
      rw [execRelaunchNodes, if_pos refused]
      have eq : (s.requestStop 1).relaunchedNodes = s.relaunchedNodes :=
        congrArg PrimeBooks.relaunchedNodes same
      exact eq ▸ removed_of_accounted accounted mem.1 kept
    · refine .inr (.inl ⟨kept, List.not_mem_nil, ?_⟩)
      cases group with
      | true => exact other fun own ↦ mem ⟨own, rfl⟩
      | false => exact List.not_mem_nil
  · rw [execRelaunchNodes, if_neg refused] at removed ⊢
    by_cases fails : input.fails = true
    · rw [if_pos fails] at removed ⊢
      have kept := mem_discardNodes.mp removed
      have old : n ∈ s.removedNodes := by simpa [kept.2] using kept.1
      exact .inr (.inl ⟨old, List.not_mem_nil, other kept.2⟩)
    · rw [if_neg fails] at removed ⊢
      by_cases mem : n ∈ nodes
      · exact .inr (.inr (.inl ⟨_, List.mem_singleton_self _, mem⟩))
      · have old : n ∈ s.removedNodes := by simpa [mem] using removed
        exact .inr (.inl ⟨old, List.not_mem_nil, other mem⟩)

theorem execRelaunchNodes_removed {nodes : List N} {group : Bool} {place : RelaunchAt}
    {sig : Option PrimeError} {input : PrimeInput N} {inFlight : Nat}
    {rest : List (PrimeFrame V N)}
    (stack : TaskWorld.IsStack PrimeFrame.calledBy (.relaunchNodes nodes group place :: rest))
    (meets : s.keepsBudget job inFlight (.relaunchNodes nodes group place) sig input = true) {n : N}
    (removed : n ∈ (s.execRelaunchNodes job nodes group place sig input).data.removedNodes) :
    StaysRemoved s (.relaunchNodes nodes group place) sig rest
      (s.execRelaunchNodes job nodes group place sig input) n := by
  cases sig with
  | some e =>
    have idle := regrouped_relaunchNodes (V := V) nodes group place (some e) (by simp)
    cases e with
    | error =>
      -- the nodes of the relaunch are discarded
      have kept : n ∈ s.removedNodes ∧ n ∉ nodes := by
        cases place <;> exact mem_discardNodes.mp removed
      refine .inr (.inl ⟨kept.1, ?_, by simp [idle]⟩)
      cases place with
      | asked => exact kept.2
      | start | waiting => exact List.not_mem_nil
    | timeout =>
      have kept : n ∈ s.removedNodes := by cases place <;> exact removed
      cases place with
      | start | waiting => exact .inr (.inl ⟨kept, List.not_mem_nil, by simp [idle]⟩)
      | asked =>
        by_cases mem : n ∈ nodes
        · obtain ⟨actor, node, rest', rfl, rfl, rfl⟩ | rfl :=
            PrimeFrame.calledBy_relaunchNodes stack
          · exact .inr (.inr (.inr ⟨_, rest', _, rfl, rfl, mem⟩))
          · exact .inl (removed_of_accounted meets mem kept)
        · exact .inr (.inl ⟨kept, mem, by simp [idle]⟩)
    | cancelled =>
      have kept : n ∈ s.removedNodes := by cases place <;> exact removed
      cases place with
      | start | waiting => exact .inr (.inl ⟨kept, List.not_mem_nil, by simp [idle]⟩)
      | asked =>
        by_cases mem : n ∈ nodes
        · refine .inl (removed_of_accounted ?_ mem kept)
          cases group <;> exact meets
        · exact .inr (.inl ⟨kept, mem, by simp [idle]⟩)
  | none =>
    cases place with
    | start => exact enterRelaunchNodes_removed meets removed
    | asked =>
      have idle := regrouped_relaunchNodes (V := V) nodes group .asked none (by simp)
      have kept : n ∈ s.removedNodes ∧ n ∉ nodes.filter fun n ↦ n ∉ input.relaunched := by
        simp only [execRelaunchNodes] at removed
        split at removed <;> exact mem_discardNodes.mp removed
      by_cases mem : n ∈ nodes
      · have answered : n ∈ input.relaunched := by simpa [mem] using kept.2
        apply Or.inl
        simp only [execRelaunchNodes]
        split <;> exact List.mem_append_right _ answered
      · exact .inr (.inl ⟨kept.1, mem, by simp [idle]⟩)
    | waiting =>
      have idle := regrouped_relaunchNodes (V := V) nodes group .waiting none (by simp)
      exact .inr (.inl ⟨removed, List.not_mem_nil, by simp [idle]⟩)

theorem execRelaunchSingle_removed [DecidableEq V] {actor : V} {place : SingleAt N}
    {sig : Option PrimeError} {input : PrimeInput N} {inFlight : Nat} {rest : List (PrimeFrame V N)}
    (meets : s.keepsBudget job inFlight (.relaunchSingle actor place) sig input = true) {n : N}
    (removed : n ∈ s.removedNodes) :
    StaysRemoved s (.relaunchSingle actor place) sig rest
      (s.execRelaunchSingle actor place sig input) n := by
  by_cases timedOut : ∃ node, place = .relaunched node ∧ sig = some .timeout
  · obtain ⟨node, rfl, rfl⟩ := timedOut
    by_cases mem : n = node
    · subst mem
      by_cases fails : input.fails = true
      · have accounted : s.accounted [n] = true := by simpa [keepsBudget_timeout, fails] using meets
        apply Or.inl
        rw [execRelaunchSingle, if_pos fails]
        exact removed_of_accounted accounted (List.mem_singleton_self n) removed
      · rw [execRelaunchSingle, if_neg fails]
        exact .inr (.inr (.inr ⟨_, _, _, rfl, rfl, mem_getNodeGroup n input.rayNodes⟩))
    · exact .inr (.inl ⟨removed, List.not_mem_nil, by simp [PrimeFrame.regrouped, mem]⟩)
  · have idle : (PrimeFrame.relaunchSingle actor place).regrouped sig = [] := by
      cases place with
      | start | grouped => cases sig <;> rfl
      | relaunched node =>
        cases sig with
        | none => rfl
        | some e =>
          cases e with
          | timeout => exact absurd ⟨node, rfl, rfl⟩ timedOut
          | error | cancelled => rfl
    exact .inr (.inl ⟨removed, List.not_mem_nil, by simp [idle]⟩)

end

variable [DecidableEq V] [DecidableEq R] [DecidableEq N] {job : PrimeJob V R}
  {s : PrimeManager V R N}

/-- No coroutine restarts the job or an actor beyond its limit. -/
theorem exec_accounts {ctx : TaskContext} {f : PrimeFrame V N} {sig : Option PrimeError}
    {input : PrimeInput N} (h : s.books.Accounts job) :
    (s.exec job ctx f sig input).data.books.Accounts job := by
  have books := s.exec_books job sig input ctx f
  generalize outcome : s.exec job ctx f sig input = o at books
  cases books with
  | same books => exact books ▸ h
  | @restarts actors byJob place o counts restarts books grows counted =>
    rw [books]
    refine ⟨h.nodes, h.jobs, h.jobMax, fun v ↦ ?_, fun v ↦ ?_⟩
    · have before : s.actorRestarts v ≤ (s.vertex v).restartCount := h.actors v
      have grows := grows v
      rcases counted with rfl | counted
      · exact before.trans grows
      · have := counted v
        show restarts v ≤ counts v
        omega
    · have before : s.actorRestarts v ≤ job.maxRestart v := h.actorMax v
      have counts' : s.actorRestarts v ≤ (s.vertex v).restartCount := h.actors v
      rcases counted with rfl | counted
      · exact before
      · obtain ⟨restarted, count, limit⟩ := counted v
        show restarts v ≤ job.maxRestart v
        by_cases mem : v ∈ actors
        · have := limit mem
          omega
        · rw [List.count_eq_zero_of_not_mem mem] at restarted
          omega
  | restartsJob restarts books counted =>
    rw [books]
    have jobs : s.jobRestarts ≤ s.jobRestartCount := h.jobs
    refine ⟨h.nodes, ?_, ?_, h.actors, h.actorMax⟩
    · show restarts ≤ s.jobRestartCount + 1
      omega
    · have jobMax : s.jobRestarts ≤ job.jobMaxRestart := h.jobMax
      show restarts ≤ job.jobMaxRestart
      omega
  | flags flags books failover =>
    rw [books]
    exact ⟨h.nodes, h.jobs, h.jobMax, h.actors, h.actorMax⟩
  | @relaunches nodes group place o count removed relaunched books counted =>
    rw [books]
    refine ⟨?_, h.jobs, h.jobMax, h.actors, h.actorMax⟩
    have nodes : s.relaunchedNodes.length ≤ s.nodeRestartCount := h.nodes
    show relaunched.length ≤ count
    omega

/-- What was relaunched stays so. -/
theorem exec_relaunched {ctx : TaskContext} {f : PrimeFrame V N} {sig : Option PrimeError}
    {input : PrimeInput N} {n : N} (mem : n ∈ s.relaunchedNodes) :
    n ∈ (s.exec job ctx f sig input).data.relaunchedNodes := by
  have books := s.exec_books job sig input ctx f
  generalize s.exec job ctx f sig input = o at books
  cases books with
  | same books | restarts _ _ books | restartsJob _ books | flags _ books =>
    have same : o.data.relaunchedNodes = s.relaunchedNodes :=
      congrArg PrimeBooks.relaunchedNodes books
    exact same ▸ mem
  | relaunches count removed relaunched books _ kept =>
    have same : o.data.relaunchedNodes = relaunched := congrArg PrimeBooks.relaunchedNodes books
    exact same ▸ kept.subset mem

theorem exec_nodes {f : PrimeFrame V N} {sig : Option PrimeError} {input : PrimeInput N}
    {inFlight : Nat} (ctx : TaskContext)
    (meets : s.keepsBudget job inFlight f sig input = true)
    (allowed : s.allows f sig input = true)
    (within : s.nodeRestartCount + inFlight ≤ job.nodeMaxRestart) :
    (s.exec job ctx f sig input).data.nodeRestartCount +
      ((s.exec job ctx f sig input).next.frames.map (·.asked.length)).sum + inFlight ≤
      job.nodeMaxRestart + f.asked.length := by
  by_cases relaunch : ∃ nodes group place, f = .relaunchNodes nodes group place
  · obtain ⟨nodes, group, place, rfl⟩ := relaunch
    exact execRelaunchNodes_nodes meets allowed within
  · have other : ∀ nodes group place, f ≠ .relaunchNodes nodes group place :=
      fun nodes group place eq ↦ relaunch ⟨nodes, group, place, eq⟩
    obtain ⟨own, frames⟩ := (s.exec_next job sig input ctx f).asked other
    have same : (s.exec job ctx f sig input).data.nodeRestartCount = s.nodeRestartCount := by
      have books := s.exec_books job sig input ctx f
      generalize s.exec job ctx f sig input = o at books
      cases books with
      | same books | restarts _ _ books | restartsJob _ books | flags _ books =>
        exact congrArg PrimeBooks.nodeRestartCount books
      | relaunches => exact absurd rfl (other _ _ _)
    have zero : ((s.exec job ctx f sig input).next.frames.map (·.asked.length)).sum = 0 := by
      apply List.sum_eq_zero_iff_forall_eq_nat.mpr
      intro n mem
      obtain ⟨g, hg, rfl⟩ := List.mem_map.mp mem
      rw [frames g hg]
      rfl
    rw [same, zero, own]
    simpa using within

/-- What each frame does to the removed nodes. -/
theorem exec_removed {ctx : TaskContext} {f : PrimeFrame V N} {sig : Option PrimeError}
    {input : PrimeInput N} {inFlight : Nat} {rest : List (PrimeFrame V N)}
    (stack : TaskWorld.IsStack PrimeFrame.calledBy (f :: rest))
    (meets : s.keepsBudget job inFlight f sig input = true) {n : N}
    (removed : n ∈ (s.exec job ctx f sig input).data.removedNodes) :
    StaysRemoved s f sig rest (s.exec job ctx f sig input) n := by
  by_cases relaunch : ∃ nodes group place, f = .relaunchNodes nodes group place
  · obtain ⟨nodes, group, place, rfl⟩ := relaunch
    exact execRelaunchNodes_removed stack meets removed
  · have other : ∀ nodes group place, f ≠ .relaunchNodes nodes group place :=
      fun nodes group place eq ↦ relaunch ⟨nodes, group, place, eq⟩
    have old : n ∈ s.removedNodes := by
      have books := s.exec_books job sig input ctx f
      generalize s.exec job ctx f sig input = o at books removed
      cases books with
      | same books | restarts _ _ books | restartsJob _ books | flags _ books =>
        have same : o.data.removedNodes = s.removedNodes := congrArg PrimeBooks.removedNodes books
        exact same ▸ removed
      | relaunches => exact absurd rfl (other _ _ _)
    cases f with
    | relaunchNodes nodes group place => exact absurd rfl (other nodes group place)
    | relaunchSingle actor place => exact execRelaunchSingle_removed meets old
    | relaunchGroup nodes place =>
      by_cases enters : place = .start ∧ sig = none
      · obtain ⟨rfl, rfl⟩ := enters
        by_cases mem : n ∈ nodes
        · exact .inr (.inr (.inr ⟨_, _, _, rfl, rfl, mem⟩))
        · exact .inr (.inl ⟨old, List.not_mem_nil, mem⟩)
      · have idle : (PrimeFrame.relaunchGroup (V := V) nodes place).regrouped sig = [] := by
          cases place with
          | done => cases sig <;> rfl
          | start =>
            cases sig with
            | none => exact absurd ⟨rfl, rfl⟩ enters
            | some e => rfl
        exact .inr (.inl ⟨old, List.not_mem_nil, by simp [idle]⟩)
    | masterStart | prepare | setupActors | nodesCheck | start | mainLoop | restartActors
    | doFailover | restartJob | processFailover =>
      exact .inr (.inl ⟨old, List.not_mem_nil, by cases sig <;> exact List.not_mem_nil⟩)

end PrimeManager

/-! ### Runs -/

namespace PrimeWorld

/-- A live activation awaits the answer for the node, or hands a timed-out relaunch on to the group
of the node. -/
def relaunching (w : PrimeWorld V R N) (n : N) : Prop :=
  (∃ e ∈ w.frames, n ∈ e.2.asked) ∨ ∃ t f sig, w.top = some (t, f, sig) ∧ n ∈ f.regrouped sig

/-- The budgets of the whole job. -/
structure BudgetsHold (job : PrimeJob V R) (w : PrimeWorld V R N) : Prop where
  nodes : w.data.relaunchedNodes.length ≤ job.nodeMaxRestart
  jobs : w.data.jobRestarts ≤ job.jobMaxRestart
  actors : ∀ v, w.data.actorRestarts v ≤ job.maxRestart v
  removed : ∀ n ∈ w.data.removedNodes, n ∈ w.data.relaunchedNodes ∨ w.relaunching n

/-- The step stays within the budget of node relaunches and leaves no node removed for nothing. -/
def keepsBudgets [DecidableEq N] (job : PrimeJob V R) (w : PrimeWorld V R N) :
    PrimeLabel V N → Bool
  | .exec input => w.top.all fun (_, f, sig) ↦
    w.data.keepsBudget job (w.weigh (·.asked.length)) f sig input
  | _ => true

/-- The nodes that are being asked for fit into the budget. -/
structure Budgeted (job : PrimeJob V R) (w : PrimeWorld V R N) : Prop where
  valid : w.Valid
  stacked : w.Stacked PrimeFrame.calledBy
  accounts : w.data.books.Accounts job
  nodes : w.data.nodeRestartCount + w.weigh (·.asked.length) ≤ job.nodeMaxRestart
  removed : ∀ n ∈ w.data.removedNodes, n ∈ w.data.relaunchedNodes ∨ w.relaunching n

variable {job : PrimeJob V R} {w w' : PrimeWorld V R N}

theorem Budgeted.hold (h : w.Budgeted job) : w.BudgetsHold job where
  nodes := by
    have relaunched : w.data.relaunchedNodes.length ≤ w.data.nodeRestartCount := h.accounts.nodes
    have := h.nodes
    omega
  jobs := h.accounts.jobMax
  actors := h.accounts.actorMax
  removed := h.removed

theorem budgeted_empty {s : PrimeManager V R N} (settled : s.books.Settled job) :
    Budgeted job (⟨s, .empty, [], 0, none⟩ : PrimeWorld V R N) where
  valid := TaskWorld.valid_empty s
  stacked := TaskWorld.stacked_empty _ s
  accounts := settled.accounts
  nodes := settled.nodes
  removed n mem := .inl (settled.removed n mem)

/-- A new task asks for no nodes. -/
theorem Budgeted.called (h : w.Budgeted job) (idle : w.running = none)
    (result : PrimeManager V R N × Option (PrimeFrame V N)) {flags : List R}
    (same : result.1.books = { w.data.books with failoverStage := flags })
    (starts : ∀ f, result.2 = some f → f.routine = f ∧ f.calledBy none) :
    Budgeted job (w.called result) := by
  have started : (result.2.toList.map (·.asked.length)).sum = 0 := by
    apply List.sum_eq_zero_iff_forall_eq_nat.mpr
    intro n mem
    obtain ⟨g, start, rfl⟩ := List.mem_map.mp mem
    rw [PrimeFrame.asked_of_first (starts g (Option.mem_toList.mp start)).1]
    rfl
  have count : result.1.nodeRestartCount = w.data.nodeRestartCount :=
    congrArg PrimeBooks.nodeRestartCount same
  have removedNodes : result.1.removedNodes = w.data.removedNodes :=
    congrArg PrimeBooks.removedNodes same
  have relaunchedNodes : result.1.relaunchedNodes = w.data.relaunchedNodes :=
    congrArg PrimeBooks.relaunchedNodes same
  refine ⟨TaskWorld.valid_called h.valid idle result,
    TaskWorld.stacked_called h.stacked result fun f start ↦ (starts f start).2, ?_, ?_, ?_⟩
  · rw [TaskWorld.data_called, same]
    exact ⟨h.accounts.nodes, h.accounts.jobs, h.accounts.jobMax, h.accounts.actors,
      h.accounts.actorMax⟩
  · rw [TaskWorld.data_called, TaskWorld.weigh_called h.valid, started, count]
    exact h.nodes
  · intro n removed
    rw [TaskWorld.data_called] at removed ⊢
    rcases h.removed n (removedNodes ▸ removed) with relaunched | ⟨e, he, asks⟩ |
      ⟨t', f', sig', top', -⟩
    · exact .inl (relaunchedNodes.symm ▸ relaunched)
    · exact .inr (.inl ⟨e, TaskWorld.mem_frames_called h.valid _ he, asks⟩)
    · simp [TaskWorld.top, idle] at top'

theorem budgeted_recovered [DecidableEq R] {loaded : PrimeManager V R N}
    (settled : loaded.books.Settled job) : (recovered job loaded).Budgeted job := by
  rw [recovered]
  split
  · have idle := budgeted_empty settled
    have first := idle.called rfl
      ({ loaded with notify := 1, stoppedEvent := false, task := some 0 }, some (.mainLoop .test))
      rfl (by simp [PrimeFrame.routine, PrimeFrame.calledBy])
    split
    · exact first.called rfl (_, some (.processFailover .start)) rfl
        (by simp [PrimeFrame.routine, PrimeFrame.calledBy])
    · exact first
  · exact budgeted_empty ⟨⟨settled.accounts.nodes, settled.accounts.jobs, settled.accounts.jobMax,
      settled.accounts.actors, settled.accounts.actorMax⟩, settled.nodes, settled.removed⟩

variable [DecidableEq V] [DecidableEq R] [DecidableEq N]

theorem budgeted_step (h : w.Budgeted job) {l : PrimeLabel V N}
    (meets : keepsBudgets job w l = true) (taken : step job w l = some w') :
    w'.Budgeted job := by
  have valid := TaskWorld.valid_step taken h.valid
  have stacked := stacked_step h.stacked taken
  cases TaskWorld.step_cases taken with
  | resumed t sig f rest idle stack _ _ =>
    refine ⟨valid, stacked, h.accounts, h.nodes, fun n mem ↦ ?_⟩
    refine (h.removed n mem).imp_right ?_
    rintro (asked | ⟨t', f', sig', top, -⟩)
    · exact .inl asked
    · simp [TaskWorld.top, idle] at top
  | executed t sig f rest input running stack allowed =>
    have mem := Dict.get?_eq_some_iff.mp stack
    have old : t < w.fresh := h.valid.numbered t (Dict.mem_iff.mpr ⟨_, mem⟩)
    have top := TaskWorld.top_eq running stack
    rw [keepsBudgets, top] at meets
    refine ⟨valid, stacked, ?_, ?_, fun n removed ↦ ?_⟩
    · rw [TaskWorld.data_settle]
      exact PrimeManager.exec_accounts h.accounts
    · have nodes := PrimeManager.exec_nodes (w.context t) meets allowed h.nodes
      have weighed := TaskWorld.weigh_settle (w.data.exec job (w.context t) f sig input) h.valid
        stack (·.asked.length)
      have spawned : ((w.data.exec job (w.context t) f sig input).effect.spawned.map
          (·.asked.length)).sum = 0 := by
        apply List.sum_eq_zero_iff_forall_eq_nat.mpr
        intro n mem
        obtain ⟨g, spawn, rfl⟩ := List.mem_map.mp mem
        rw [w.data.exec_spawned job _ f sig input g spawn]
        rfl
      rw [TaskWorld.data_settle]
      show (w.data.exec job (w.context t) f sig input).data.nodeRestartCount +
        (w.settle t rest (w.data.exec job (w.context t) f sig input)).weigh (·.asked.length) ≤ _
      omega
    · rw [TaskWorld.data_settle] at removed
      rw [TaskWorld.data_settle]
      rcases PrimeManager.exec_removed (h.stacked _ mem) meets removed with
        relaunched | ⟨before, notAsked, notRegrouped⟩ | ⟨g, next, asks⟩ |
        ⟨g, stack', sig', frames, goesOn, hands⟩
      · exact .inl relaunched
      · rcases h.removed n before with relaunched | ⟨e, he, asks⟩ | ⟨t', f', sig', top', hands⟩
        · exact .inl (PrimeManager.exec_relaunched relaunched)
        · rcases TaskWorld.mem_frames_settle (w.data.exec job (w.context t) f sig input) h.valid
            stack he with rfl | he
          · exact absurd asks notAsked
          · exact .inr (.inl ⟨e, he, asks⟩)
        · cases top.symm.trans top'
          exact absurd hands notRegrouped
      · exact .inr (.inl ⟨(t, g), TaskWorld.mem_frames_next _ h.valid stack next, asks⟩)
      · exact .inr (.inr ⟨t, g, sig', TaskWorld.top_settle old frames goesOn, hands⟩)
  | called x idle =>
    exact h.called idle _ (w.data.call_books job x) fun f start ↦
      ⟨(w.data.call_starts job start).1, (w.data.call_starts job start).2.2⟩

/-- In every run in which a relaunch that is tried fits into what is left of the budget, and none
ends without accounting for its nodes, the budgets hold. -/
theorem restartBudgets_hold {start : PrimeWorld V R N}
    (begins : start = init ∨ ∃ loaded, loaded.books.Settled job ∧ start = recovered job loaded)
    {labels : List (PrimeLabel V N)}
    (run : Run (step job) (fun w l ↦ keepsBudgets job w l = true) start labels w) :
    w.BudgetsHold job := by
  have budgeted : w.Budgeted job := by
    refine run.invariant ?_ fun _ _ _ h meets taken ↦ budgeted_step h meets taken
    obtain rfl | ⟨loaded, settled, rfl⟩ := begins
    · refine budgeted_empty ⟨⟨?_, ?_, ?_, ?_, ?_⟩, ?_, ?_⟩ <;> simp [PrimeManager.books]
    · exact budgeted_recovered settled
  exact budgeted.hold

/-- A job whose worker may not fail on a node. -/
def strictJob : PrimeJob Nat Nat := { soloJob with perNodeMaxFailure := fun _ ↦ 0 }

/-- The worker fails, and its node is to be relaunched. -/
def strictRelaunch : List (PrimeLabel Nat Nat) :=
  soloStart ++ [.call (.reportExecutionResult 0 ⟨true, 5⟩), .resume 1 none, goesOn, goesOn, goesOn,
    goesOn, goesOn, goesOn]

/-- The relaunch times out, and that of the two nodes of the group is tried. -/
def strictGroup : List (PrimeLabel Nat Nat) :=
  strictRelaunch ++ [.resume 1 (some .timeout), goesOn,
    .exec { rayNodes := [(7, "rack"), (8, "rack")] }, goesOn, goesOn]

theorem restartBudgets_hold_run :
    ∃ w : PrimeWorld Nat Nat Nat,
      Run (step strictJob) (fun w l ↦ keepsBudgets strictJob w l = true) init
        (strictRelaunch ++ [.resume 1 none, .exec { relaunched := [7] }, .resume 1 none, goesOn,
          goesOn, goesOn]) w ∧
        (w.data.relaunchedNodes = [7] ∧ w.data.removedNodes = [7] ∧ w.data.jobRestarts = 1) ∧
          w.BudgetsHold strictJob := by
  obtain ⟨w, run, relaunched⟩ : ∃ w : PrimeWorld Nat Nat Nat,
      Run (step strictJob) (fun w l ↦ keepsBudgets strictJob w l = true) init
        (strictRelaunch ++ [.resume 1 none, .exec { relaunched := [7] }, .resume 1 none, goesOn,
          goesOn, goesOn]) w ∧
        decide (w.data.relaunchedNodes = [7] ∧ w.data.removedNodes = [7] ∧
          w.data.jobRestarts = 1) = true :=
    run_of_guarded_any (by decide +kernel)
  exact ⟨w, run, of_decide_eq_true relaunched, restartBudgets_hold (.inl rfl) run⟩

/-- One node may be relaunched. When both are, the budget is exceeded; when their relaunch times
out, they stay removed. -/
theorem restartBudgets_doNotHold :
    (∃ w : PrimeWorld Nat Nat Nat,
      Run (step strictJob) anyStep init
        (strictGroup ++ [.resume 1 none, .exec { relaunched := [7, 8] }]) w ∧
        w.data.relaunchedNodes = [7, 8] ∧ ¬ w.BudgetsHold strictJob) ∧
      ∃ w : PrimeWorld Nat Nat Nat,
        Run (step strictJob) anyStep init
          (strictGroup ++ [.resume 1 (some .timeout), goesOn, goesOn, goesOn]) w ∧
          w.data.relaunchedNodes = [] ∧ w.data.removedNodes = [7, 8] ∧
            ¬ w.BudgetsHold strictJob := by
  obtain ⟨w, run, exceeded⟩ : ∃ w : PrimeWorld Nat Nat Nat,
      Run (step strictJob) anyStep init
        (strictGroup ++ [.resume 1 none, .exec { relaunched := [7, 8] }]) w ∧
        decide (w.data.relaunchedNodes = [7, 8]) = true := run_of_any (by decide +kernel)
  obtain ⟨w', run', kept⟩ : ∃ w : PrimeWorld Nat Nat Nat,
      Run (step strictJob) anyStep init
        (strictGroup ++ [.resume 1 (some .timeout), goesOn, goesOn, goesOn]) w ∧
        decide (w.data.relaunchedNodes = [] ∧ w.data.removedNodes = [7, 8] ∧
          (∀ e ∈ w.frames, e.2.asked = []) ∧
            w.top.all (fun (_, f, sig) ↦ f.regrouped sig = []) = true) = true :=
    run_of_any (by decide +kernel)
  have relaunched := of_decide_eq_true exceeded
  obtain ⟨none, removed, unasked, unhanded⟩ := of_decide_eq_true kept
  refine ⟨⟨w, run, relaunched, ?_⟩, ⟨w', run', none, removed, ?_⟩⟩
  · intro hold
    have nodes := hold.nodes
    rw [relaunched] at nodes
    exact absurd nodes (by decide)
  · intro hold
    rcases hold.removed 7 (by simp [removed]) with mem | ⟨e, he, asked⟩ | ⟨t, f, sig, top, hands⟩
    · simp [none] at mem
    · simp [unasked e he] at asked
    · rw [top] at unhanded
      simp_all

end PrimeWorld

end ProbingBaselines.Dlrover
