import ProbingBaselines.Dlrover.NodeUpdates

/-!
# The relaunch budget

Which nodes are replaced, and what their `relaunch_count` says. An event that replaces a node counts
on that node before it is copied; a failure report of a node error replaces a node without counting
and without a look at the budget.
-/

namespace ProbingBaselines.Dlrover.JobManager

open Lib

/-- The key of a node: its type and id. -/
abbrev NodeKey := NodeType × Nat

/-! ### The history of replacements -/

/-- How many nodes come before a node in its replacement chain. -/
def ancestors : List Replacement → NodeKey → Nat
  | [], _ => 0
  | r :: rs, k => if r.new.key = k then ancestors rs r.source.key + 1 else ancestors rs k

/-- The `relaunch_count` a node was launched with, which its pod has as a label. -/
def launchCount : List Replacement → NodeKey → Nat
  | [], _ => 0
  | r :: rs, k => if r.new.key = k then r.new.relaunchCount else launchCount rs k

/-- A failure report replaced the node or one that comes before it in its chain. -/
def Reported : List Replacement → NodeKey → Prop
  | [], _ => False
  | r :: rs, k =>
    r.reported ∧ r.source.key = k ∨
      if r.new.key = k then r.reported ∨ Reported rs r.source.key else Reported rs k

/-- A replacement was launched for the node. -/
def Replaced (rs : List Replacement) (k : NodeKey) : Prop := k ∈ rs.map fun r ↦ r.source.key

instance (rs : List Replacement) (k : NodeKey) : Decidable (Replaced rs k) :=
  inferInstanceAs (Decidable (_ ∈ _))

section History

variable {r : Replacement} {rs : List Replacement} {k : NodeKey}

theorem ancestors_of_ne (ne : r.new.key ≠ k) : ancestors (r :: rs) k = ancestors rs k := if_neg ne

theorem launchCount_of_ne (ne : r.new.key ≠ k) : launchCount (r :: rs) k = launchCount rs k :=
  if_neg ne

theorem Reported.of_ne (ne : r.new.key ≠ k) (h : Reported rs k) : Reported (r :: rs) k := by
  unfold Reported
  rw [if_neg ne]
  exact .inr h

theorem not_reported_new (h : ¬ Reported (r :: rs) r.new.key) :
    r.reported = false ∧ ¬ Reported rs r.source.key := by
  unfold Reported at h
  rw [if_pos rfl] at h
  refine ⟨Bool.eq_false_iff.mpr fun reported ↦ h (.inr (.inl reported)), fun h' ↦ ?_⟩
  exact h (.inr (.inr h'))

theorem not_reported_source (h : ¬ Reported (r :: rs) r.source.key) : r.reported = false := by
  unfold Reported at h
  exact Bool.eq_false_iff.mpr fun reported ↦ h (.inl ⟨reported, rfl⟩)

theorem replaced_cons : Replaced (r :: rs) k ↔ k = r.source.key ∨ Replaced rs k := by
  unfold Replaced
  rw [List.map_cons, List.mem_cons]

/-- The counts that nodes are launched with, after one more replacement. -/
theorem launch_cons
    (launch : ∀ k, ¬ Reported rs k → launchCount rs k = ancestors rs k)
    (new : r.reported = false → ¬ Reported rs r.source.key →
      r.new.relaunchCount = ancestors rs r.source.key + 1)
    (unreported : ¬ Reported (r :: rs) k) : launchCount (r :: rs) k = ancestors (r :: rs) k := by
  by_cases eq : r.new.key = k
  · subst eq
    rcases not_reported_new unreported with ⟨event, unreported⟩
    unfold launchCount ancestors
    rw [if_pos rfl, if_pos rfl]
    exact new event unreported
  · rw [launchCount_of_ne eq, ancestors_of_ne eq]
    exact launch k fun old ↦ unreported (old.of_ne eq)

/-- The number of replacements in the chain of a node, up to its own. -/
theorem chain_source (ne : r.new.key ≠ r.source.key) :
    (ancestors (r :: rs) r.source.key + if Replaced (r :: rs) r.source.key then 1 else 0) =
      ancestors rs r.source.key + 1 := by
  rw [ancestors_of_ne ne, if_pos (replaced_cons.mpr (.inl rfl))]

theorem chain_new (ne : r.new.key ≠ r.source.key) (unused : ¬ Replaced rs r.new.key) :
    (ancestors (r :: rs) r.new.key + if Replaced (r :: rs) r.new.key then 1 else 0) =
      ancestors rs r.source.key + 1 := by
  have first : ¬ Replaced (r :: rs) r.new.key := by
    rw [replaced_cons]
    rintro (eq | old)
    · exact ne eq
    · exact unused old
  have next : ancestors (r :: rs) r.new.key = ancestors rs r.source.key + 1 := if_pos rfl
  rw [next, if_neg first]

theorem chain_other (ne : r.new.key ≠ k) (other : k ≠ r.source.key) :
    (ancestors (r :: rs) k + if Replaced (r :: rs) k then 1 else 0) =
      ancestors rs k + if Replaced rs k then 1 else 0 := by
  have same : Replaced (r :: rs) k ↔ Replaced rs k := by
    rw [replaced_cons]
    exact or_iff_right other
  rw [ancestors_of_ne ne, if_congr same rfl rfl]

end History

/-! ### The decision -/

theorem shouldRelaunch_relaunchable {env : Env} {node : Node} {flow : NodeStateFlow}
    (h : shouldRelaunch env node flow = true) : node.relaunchable = true := by
  unfold shouldRelaunch at h
  split at h
  · cases h
  · next all => exact (Decidable.not_not.mp all).2.2

/-- An event relaunches a node that was not killed only within its budget. -/
theorem shouldRelaunch_budget {env : Env} {node : Node} {flow : NodeStateFlow}
    (h : shouldRelaunch env node flow = true) (other : node.exitReason ≠ .killed) :
    node.relaunchCount < node.maxRelaunchCount := by
  by_contra exhausted
  have le := Nat.le_of_not_lt exhausted
  unfold shouldRelaunch at h
  simp only [if_pos le, if_pos other, ite_self] at h
  cases h

namespace DistributedJobManager

variable {m s t : DistributedJobManager} {n node source : Node} {k : NodeKey} {mx : Nat}

/-- What holds in every state that is reached from `s`, the budget being `mx`. -/
structure Budget (mx : Nat) (s m : DistributedJobManager) : Prop where
  wellFormed : m.WellFormed
  maxCount : ∀ k n, m.node? k = some n → n.maxRelaunchCount = mx
  sources : ∀ r ∈ m.replacements, ∃ n, m.node? r.source.key = some n ∧ n.relaunchable = false
  news : ∀ r ∈ m.replacements, ∃ n, m.node? r.new.key = some n
  kept : ∀ k, m.node? k = none → s.node? k = none
  fresh : ∀ r ∈ m.replacements, s.node? r.new.key = none
  once : (m.replacements.map fun r ↦ r.source.key).Nodup
  newOnce : (m.replacements.map fun r ↦ r.new.key).Nodup
  launch : ∀ k, ¬ Reported m.replacements k →
    launchCount m.replacements k = ancestors m.replacements k
  count : ∀ k n, m.node? k = some n → ¬ Reported m.replacements k →
    n.relaunchCount = ancestors m.replacements k + if Replaced m.replacements k then 1 else 0
  within : ∀ r ∈ m.replacements, r.reported = false → r.source.exitReason ≠ .killed →
    r.source.relaunchCount < mx

/-- The state a job starts from. -/
structure Unreplaced (mx : Nat) (s : DistributedJobManager) : Prop where
  wellFormed : s.WellFormed
  replacements : s.replacements = []
  counts : ∀ k n, s.node? k = some n → n.maxRelaunchCount = mx ∧ n.relaunchCount = 0

theorem Unreplaced.budget (start : s.Unreplaced mx) : Budget mx s s where
  wellFormed := start.wellFormed
  maxCount k n found := (start.counts k n found).1
  sources := by simp [start.replacements]
  news := by simp [start.replacements]
  kept _ h := h
  fresh := by simp [start.replacements]
  once := by simp [start.replacements]
  newOnce := by simp [start.replacements]
  launch := by simp [start.replacements, launchCount, ancestors]
  count k n found _ := by simp [start.replacements, ancestors, Replaced, (start.counts k n found).2]
  within := by simp [start.replacements]

/-- A node is stored again, with the same count. -/
theorem Budget.updateNode {o : Node} (h : Budget mx s m) (found : m.node? n.key = some o)
    (maxCount : n.maxRelaunchCount = o.maxRelaunchCount)
    (relaunchable : n.relaunchable = o.relaunchable)
    (count : ¬ Reported m.replacements n.key → n.relaunchCount = o.relaunchCount) :
    Budget mx s (m.updateNode n) := by
  have known : n.type ∈ m.types := by
    rw [show n.type = o.type from (congrArg Prod.fst (h.wellFormed.keyed found)).symm]
    exact h.wellFormed.typed found
  have still : ∀ k n', m.node? k = some n' →
      ∃ n'', (m.updateNode n).node? k = some n'' ∧ n''.relaunchable = n'.relaunchable := by
    intro k n' found'
    rw [node?_updateNode]
    split
    · next eq =>
      rw [eq, found] at found'
      cases found'
      exact ⟨n, rfl, relaunchable⟩
    · exact ⟨n', found', rfl⟩
  constructor
  · exact h.wellFormed.updateNode known
  · intro k n' found'
    rcases node?_updateNode_cases found' with ⟨-, rfl⟩ | old
    · rw [maxCount]
      exact h.maxCount _ _ found
    · exact h.maxCount k n' old
  · intro r mem
    rw [replacements_updateNode] at mem
    rcases h.sources r mem with ⟨n', found', done⟩
    rcases still _ n' found' with ⟨n'', found'', same⟩
    exact ⟨n'', found'', same.trans done⟩
  · intro r mem
    rw [replacements_updateNode] at mem
    rcases h.news r mem with ⟨n', found'⟩
    exact (still _ n' found').imp fun _ both ↦ both.1
  · intro k none
    cases found' : m.node? k with
    | none => exact h.kept k found'
    | some n' =>
      rcases still k n' found' with ⟨n'', found'', -⟩
      rw [none] at found''
      cases found''
  · rw [replacements_updateNode]
    exact h.fresh
  · rw [replacements_updateNode]
    exact h.once
  · rw [replacements_updateNode]
    exact h.newOnce
  · rw [replacements_updateNode]
    exact h.launch
  · rw [replacements_updateNode]
    intro k n' found' unreported
    rcases node?_updateNode_cases found' with ⟨rfl, rfl⟩ | old
    · rw [count unreported]
      exact h.count _ _ found unreported
    · exact h.count k n' old unreported
  · rw [replacements_updateNode]
    exact h.within

/-- The group of a node does not matter. -/
theorem Budget.updateJobNode {o : Node} (h : Budget mx s m) (found : m.node? n.key = some o)
    (maxCount : n.maxRelaunchCount = o.maxRelaunchCount)
    (relaunchable : n.relaunchable = o.relaunchable)
    (count : ¬ Reported m.replacements n.key → n.relaunchCount = o.relaunchCount) :
    Budget mx s (m.updateJobNode n) := by
  have updated := h.updateNode found maxCount relaunchable count
  rcases jobNodes_updateNode m n with ⟨nodes, types, replacements, -⟩
  have same : (m.updateJobNode n).node? = (m.updateNode n).node? := by
    unfold node?
    rw [nodes]
  have rs : (m.updateJobNode n).replacements = (m.updateNode n).replacements :=
    replacements.symm
  exact
    { wellFormed := updated.wellFormed.congr nodes.symm types.symm
      maxCount := by rw [same]; exact updated.maxCount
      sources := by rw [same, rs]; exact updated.sources
      news := by rw [same, rs]; exact updated.news
      kept := by rw [same]; exact updated.kept
      fresh := by rw [rs]; exact updated.fresh
      once := by rw [rs]; exact updated.once
      newOnce := by rw [rs]; exact updated.newOnce
      launch := by rw [rs]; exact updated.launch
      count := by rw [same, rs]; exact updated.count
      within := by rw [rs]; exact updated.within }

/-- A node that can be relaunched was not replaced. -/
theorem Budget.unreplaced (h : Budget mx s m) (found : m.node? k = some n)
    (relaunchable : n.relaunchable = true) : ¬ Replaced m.replacements k := by
  intro replaced
  rcases List.mem_map.mp replaced with ⟨r, mem, rfl⟩
  rcases h.sources r mem with ⟨n', found', done⟩
  cases found.symm.trans found'
  rw [relaunchable] at done
  cases done

/-- Nor was a node that is not stored. -/
theorem Budget.unreplaced_of_none (h : Budget mx s m) (unused : m.node? k = none) :
    ¬ Replaced m.replacements k := by
  intro replaced
  rcases List.mem_map.mp replaced with ⟨r, mem, rfl⟩
  rcases h.sources r mem with ⟨n', found', -⟩
  rw [unused] at found'
  cases found'

/-- A node that could be relaunched is. If no failure report asked for it the node has been counted
and was within the budget, unless it was killed. -/
theorem Budget.relaunchNode {removeExitedNode reported : Bool} (h : Budget mx s m)
    (found : m.node? node.key = some n) (relaunchable : n.relaunchable = true)
    (same : source.key = node.key) (maxCount : node.maxRelaunchCount = mx)
    (counted : reported = false → ¬ Reported m.replacements node.key →
      node.relaunchCount = n.relaunchCount + 1)
    (within : reported = false → source.exitReason ≠ .killed → source.relaunchCount < mx) :
    Budget mx s (m.relaunchNode node source removeExitedNode reported) := by
  have wf := h.wellFormed
  have known : node.type ∈ m.types := by
    rw [show node.type = n.type from (congrArg Prod.fst (wf.keyed found)).symm]
    exact wf.typed found
  -- the key of the node that is launched is new
  have unused : m.node? (m.launchedNode node).key = none := wf.nextNodeId_fresh node.type
  have ne_new : ∀ k n', m.node? k = some n' → (m.launchedNode node).key ≠ k := by
    rintro k n' found' rfl
    rw [unused] at found'
    cases found'
  have ne_source : (m.launchedNode node).key ≠ source.key := same ▸ ne_new _ n found
  have unreplaced : ¬ Replaced m.replacements source.key := same ▸ h.unreplaced found relaunchable
  have count : reported = false → ¬ Reported m.replacements source.key →
      node.relaunchCount = ancestors m.replacements source.key + 1 := by
    intro event unreported
    rw [same] at unreported unreplaced ⊢
    rw [counted event unreported, h.count _ n found unreported, if_neg unreplaced, Nat.add_zero]
  have still : ∀ k n', m.node? k = some n' → ∃ n'',
      (m.relaunchNode node source removeExitedNode reported).node? k = some n'' ∧
        (n'.relaunchable = false → n''.relaunchable = false) := by
    intro k n' found'
    rw [node?_relaunchNode]
    split
    · exact ⟨_, rfl, fun _ ↦ rfl⟩
    · rw [if_neg fun eq ↦ ne_new k n' found' eq.symm]
      exact ⟨n', found', id⟩
  constructor
  · exact wf.relaunchNode known
  · intro k n' found'
    rw [node?_relaunchNode] at found'
    split at found'
    · cases found'
      exact maxCount
    · split at found'
      · cases found'
        exact maxCount
      · exact h.maxCount k n' found'
  · intro r mem
    rw [replacements_relaunchNode] at mem
    rcases List.mem_cons.mp mem with rfl | mem
    · refine ⟨replacedNode node removeExitedNode, ?_, rfl⟩
      rw [node?_relaunchNode]
      exact if_pos same
    · rcases h.sources r mem with ⟨n', found', done⟩
      rcases still _ n' found' with ⟨n'', found'', keep⟩
      exact ⟨n'', found'', keep done⟩
  · intro r mem
    rw [replacements_relaunchNode] at mem
    rcases List.mem_cons.mp mem with rfl | mem
    · refine ⟨m.launchedNode node, ?_⟩
      rw [node?_relaunchNode, if_neg (ne_new _ n found)]
      exact if_pos rfl
    · rcases h.news r mem with ⟨n', found'⟩
      exact (still _ n' found').imp fun _ both ↦ both.1
  · intro k none
    cases found' : m.node? k with
    | none => exact h.kept k found'
    | some n' =>
      rcases still k n' found' with ⟨n'', found'', -⟩
      rw [none] at found''
      cases found''
  · intro r mem
    rw [replacements_relaunchNode] at mem
    rcases List.mem_cons.mp mem with rfl | mem
    · exact h.kept _ unused
    · exact h.fresh r mem
  · rw [replacements_relaunchNode, List.map_cons, List.nodup_cons]
    exact ⟨unreplaced, h.once⟩
  · rw [replacements_relaunchNode, List.map_cons, List.nodup_cons]
    refine ⟨?_, h.newOnce⟩
    intro mem
    rcases List.mem_map.mp mem with ⟨r, mem, eq⟩
    rcases h.news r mem with ⟨n', found'⟩
    exact ne_new _ n' found' eq.symm
  · rw [replacements_relaunchNode]
    exact fun k ↦ launch_cons h.launch count
  · rw [replacements_relaunchNode]
    intro k n' found' unreported
    rw [node?_relaunchNode] at found'
    split at found'
    · next eq =>
      cases found'
      rw [eq, ← same] at unreported ⊢
      have event := not_reported_source unreported
      refine (count event fun old ↦ unreported (old.of_ne ne_source)).trans ?_
      exact (chain_source (r := ⟨source, _, reported⟩) ne_source).symm
    · next other =>
      split at found'
      · next eq =>
        cases found'
        rw [eq] at unreported ⊢
        rcases not_reported_new unreported with ⟨event, unreported⟩
        refine (count event unreported).trans ?_
        exact (chain_new (r := ⟨source, _, reported⟩) ne_source (h.unreplaced_of_none unused)).symm
      · next fresh =>
        have ne := Ne.symm fresh
        refine (h.count k n' found' fun old ↦ unreported (old.of_ne ne)).trans ?_
        exact (chain_other ne (same ▸ other)).symm
  · intro r mem
    rw [replacements_relaunchNode] at mem
    rcases List.mem_cons.mp mem with rfl | mem
    · exact within
    · exact h.within r mem

/-! ### The steps -/

/-- A pod event has the `relaunch_count` its node was launched with. -/
theorem Budget.processEvent {env : Env} {e : NodeEvent} (h : Budget mx s m)
    (label : ∀ n, m.node? e.node.key = some n → ¬ Reported m.replacements e.node.key →
      e.node.relaunchCount ≤ n.relaunchCount) : Budget mx s (m.processEvent env e) := by
  have updated : ∀ node, m.node? e.node.key = some node →
      Budget mx s (m.updateNode (node.updateInfo e.node)) := by
    intro node found
    have key := h.wellFormed.keyed found
    apply h.updateNode (o := node)
    · rwa [Node.key_updateInfo, key]
    · rfl
    · rfl
    · rw [Node.key_updateInfo, key]
      exact fun unreported ↦ Nat.max_eq_left (label node found unreported)
  have stored : ∀ node, m.node? e.node.key = some node →
      Budget mx s ((m.updateNode (node.updateInfo e.node)).updateNode (eventNode node e)) := by
    intro node found
    apply (updated node found).updateNode (o := node.updateInfo e.node)
    · rw [node?_updateNode]
      exact if_pos rfl
    · rfl
    · rfl
    · exact fun _ ↦ rfl
  have effect := processEvent_effect m env e
  generalize m.processEvent env e = u at effect ⊢
  cases effect with
  | ignored => exact h
  | updated node found => exact updated node found
  | followed node flow found => exact stored node found
  | relaunched node flow found follows relaunch =>
    have here : ((m.updateNode (node.updateInfo e.node)).updateNode (eventNode node e)).node?
        (countRelaunch env (eventNode node e)).key = some (eventNode node e) := by
      rw [node?_updateNode]
      exact if_pos (key_countRelaunch env _)
    have mx_eq := (stored node found).maxCount _ _ here
    apply (stored node found).relaunchNode here
    · exact shouldRelaunch_relaunchable relaunch
    · exact (key_countRelaunch env _).symm
    · rw [← mx_eq]
      unfold countRelaunch
      split <;> rfl
    · intro _ _
      unfold countRelaunch
      split <;> rfl
    · intro _ other
      rw [← mx_eq]
      exact shouldRelaunch_budget relaunch other

theorem Budget.handleTrainingFailure {env : Env} {type : NodeType} {id : Nat}
    {errorData : Option NodeExitReason} {level : TrainingExceptionLevel} (h : Budget mx s m) :
    Budget mx s (m.handleTrainingFailure env type id errorData level) := by
  unfold DistributedJobManager.handleTrainingFailure
  split
  · exact h
  · next node found =>
    have key := h.wellFormed.keyed found
    have mx_eq := h.maxCount _ node found
    dsimp only
    have updated : Budget mx s
        (m.updateJobNode { node with exitReason := errorData.getD node.exitReason }) := by
      apply h.updateJobNode (o := node)
      · show m.node? node.key = some node
        rwa [key]
      · rfl
      · rfl
      · exact fun _ ↦ rfl
    split
    · exact updated
    · split
      · next relaunch =>
        apply updated.relaunchNode
          (n := { node with exitReason := errorData.getD node.exitReason })
        · rw [node?_updateJobNode]
          exact if_pos rfl
        · exact relaunch.2
        · rfl
        · exact mx_eq
        · intro event
          cases event
        · intro event
          cases event
      · exact updated

/-- The steps that are looked at here: the events of pods have the label of their pod. -/
def RelaunchAction (m : DistributedJobManager) : Action → Prop
  | .event _ e => e.node.relaunchCount = launchCount m.replacements e.node.key
  | .noHeartbeat .. | .nodeAction .. | .trainingFailure .. => True
  | _ => False

theorem Budget.step {a : Action} {m' : DistributedJobManager} (h : Budget mx s m)
    (ok : m.RelaunchAction a) (taken : m.step a = some m') : Budget mx s m' := by
  cases a with
  | event env e =>
    cases taken
    apply h.processEvent
    intro n found unreported
    rw [show e.node.relaunchCount = _ from ok, h.launch _ unreported,
      h.count _ n found unreported]
    exact Nat.le_add_right _ _
  | noHeartbeat env key =>
    cases taken
    unfold noHeartbeat
    split
    · exact h
    · next node found =>
      have key_eq := h.wellFormed.keyed found
      split
      · apply h.processEvent
        intro n found' _
        rw [show Node.key { node with status := .failed, exitReason := .noHeartbeat } = key from
          key_eq, found] at found'
        cases found'
        exact Nat.le_refl _
      · exact h
  | nodeAction env type id =>
    cases taken
    unfold processNodeAction
    split
    · exact h
    · next node found =>
      have key_eq := h.wellFormed.keyed found
      apply h.processEvent
      intro n found' _
      rw [show Node.key { node with status := .failed, exitReason := .diagFail } = _ from
        key_eq, found] at found'
      cases found'
      exact Nat.le_refl _
  | trainingFailure env type id errorData level =>
    cases taken
    exact h.handleTrainingFailure
  | _ => exact absurd ok not_false

/-- In every run of such steps: no node is replaced twice and no id is used twice; a node that no
failure report replaced, and none before it, has as many relaunches as there are nodes before it,
and one more once it is replaced itself; and an event replaces a node that was not killed only
within the budget. -/
theorem replaced_within_budget {as : List Action} (start : s.Unreplaced mx)
    (run : Run DistributedJobManager.step RelaunchAction s as t) :
    (t.replacements.map fun r ↦ r.source.key).Nodup ∧
    ((t.replacements.map fun r ↦ r.new.key).Nodup ∧
      ∀ r ∈ t.replacements, s.node? r.new.key = none) ∧
    (∀ k n, t.node? k = some n → ¬ Reported t.replacements k →
      n.relaunchCount =
        ancestors t.replacements k + if Replaced t.replacements k then 1 else 0) ∧
    ∀ r ∈ t.replacements, r.reported = false → r.source.exitReason ≠ .killed →
      r.source.relaunchCount < mx := by
  have budget : Budget mx s t :=
    run.invariant (P := Budget mx s) start.budget fun _ _ _ h ok taken ↦ h.step ok taken
  exact ⟨budget.once, ⟨budget.newOnce, budget.fresh⟩, budget.count, budget.within⟩

/-- A job with one worker, which may be relaunched twice. -/
def oneWorker : DistributedJobManager :=
  initNodes [.worker]
    [{ type := .worker, id := 0, rankIndex := 0, status := .running, maxRelaunchCount := 2 }]

/-- The pod of the worker fails. -/
def workerFails : NodeEvent :=
  ⟨.modified,
    { type := .worker, id := 0, rankIndex := 0, status := .failed, maxRelaunchCount := 2 }⟩

theorem oneWorker_unreplaced : oneWorker.Unreplaced 2 where
  wellFormed := initNodes_wellFormed (by decide) (by decide)
  replacements := rfl
  counts k n found := by
    have all : ∀ e ∈ oneWorker.jobNodes.items,
        e.2.maxRelaunchCount = 2 ∧ e.2.relaunchCount = 0 := by decide
    exact all _ (Dict.get?_eq_some_iff.mp found)

theorem oneWorker_run : Run DistributedJobManager.step RelaunchAction oneWorker
    [.event {} workerFails] (oneWorker.processEvent {} workerFails) := by
  have label : oneWorker.RelaunchAction (.event {} workerFails) := by
    show workerFails.node.relaunchCount = launchCount oneWorker.replacements workerFails.node.key
    decide
  exact .snoc (l := []) _ .nil label rfl

/-- The worker is replaced once, within its budget. -/
theorem replaced_within_budget_one :
    ((oneWorker.processEvent {} workerFails).replacements.map fun r ↦ r.source.key).Nodup ∧
    ∀ r ∈ (oneWorker.processEvent {} workerFails).replacements, r.reported = false →
      r.source.exitReason ≠ .killed → r.source.relaunchCount < 2 :=
  have all := replaced_within_budget oneWorker_unreplaced oneWorker_run
  ⟨all.1, all.2.2.2⟩

/-- A worker that no node comes before has a `relaunch_count` of one when its pod has failed. -/
theorem replaced_counts_itself :
    ¬ ∀ (mx : Nat) (s t : DistributedJobManager) (as : List Action), s.Unreplaced mx →
      Run DistributedJobManager.step RelaunchAction s as t →
      (t.replacements.map fun r ↦ r.source.key).Nodup ∧
      ((t.replacements.map fun r ↦ r.new.key).Nodup ∧
        ∀ r ∈ t.replacements, s.node? r.new.key = none) ∧
      (∀ k n, t.node? k = some n → n.relaunchCount = ancestors t.replacements k) ∧
      ∀ r ∈ t.replacements, r.source.exitReason ≠ .killed → r.source.relaunchCount < mx := by
  intro every
  have count := (every 2 oneWorker _ _ oneWorker_unreplaced oneWorker_run).2.2.1 (.worker, 0)
  have stored : ((oneWorker.processEvent {} workerFails).node? (.worker, 0)).map
      Node.relaunchCount = some 1 := by decide
  have none_before : ancestors (oneWorker.processEvent {} workerFails).replacements (.worker, 0) =
      0 := by decide
  rcases Option.map_eq_some_iff.mp stored with ⟨n, found, one⟩
  rw [count n found, none_before] at one
  cases one

end DistributedJobManager

end ProbingBaselines.Dlrover.JobManager
