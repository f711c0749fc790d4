import ProbingBaselines.Lib.Dict
import ProbingBaselines.Lib.Run

/-!
# Waiting for relaunched nodes

`PrimeManager._relaunch_nodes` (`unified/controller/manager.py:384-434`) counts the nodes that Ray
lists before it has some of them relaunched, and `wait_ray_node_relaunching`
(`unified/util/node_helper.py:23-76`) looks at the list until as many nodes are alive. The list has
every node that was ever seen, with a flag that tells whether it is alive.
-/

namespace ProbingBaselines.Dlrover

open Lib

/-- `ray.nodes()`: the node ids with their flag `Alive`. -/
abbrev RayNodes := Dict String Bool

namespace RayNodes

/-- The ids of the nodes that are alive. -/
def running (nodes : RayNodes) : List String :=
  (nodes.items.filter fun e ↦ e.2).map Prod.fst

/-- The nodes that are listed and not alive. -/
def dead (nodes : RayNodes) : List String :=
  (nodes.items.filter fun e ↦ !e.2).map Prod.fst

end RayNodes

/-- Where `_relaunch_nodes` is: in `relaunch_nodes_impl`, in one of the two loops of
`wait_ray_node_relaunching`, the first with its `nodes`, or behind them. -/
inductive RelaunchPhase where
  | relaunching
  | removing (nodes : List String)
  | readying
  | done
  deriving DecidableEq

/-- A call of `_relaunch_nodes`. `before` is what Ray listed when `total_nodes_size` was taken. -/
structure NodeRelaunch where
  before : RayNodes
  total : Nat
  relaunched : List String
  phase : RelaunchPhase
  deriving DecidableEq

namespace NodeRelaunch

/-- One look at the list of nodes. -/
def check (w : NodeRelaunch) (nodes : RayNodes) : NodeRelaunch :=
  match w.phase with
  | .removing left =>
    let left' := left.filter fun node ↦ node ∈ nodes.running
    { w with phase := if left' = [] then .readying else .removing left' }
  | .readying => if nodes.running.length < w.total then w else { w with phase := .done }
  | .relaunching | .done => w

/-- The call is in one of the loops. -/
def waiting (w : NodeRelaunch) : Bool :=
  match w.phase with
  | .removing _ | .readying => true
  | .relaunching | .done => false

end NodeRelaunch

/-- The cluster, and the call that is in progress. -/
structure RelaunchSystem where
  nodes : RayNodes
  call : Option NodeRelaunch
  deriving DecidableEq

inductive RelaunchEvent where
  /-- A node joins the cluster, or comes back. -/
  | joined (id : String)
  | died (id : String)
  /-- `_relaunch_nodes` is called and takes the total. -/
  | called
  /-- `relaunch_nodes_impl` returns the nodes it has had relaunched. -/
  | relaunched (ids : List String)
  /-- One of the loops looks at the nodes. -/
  | checked
  /-- The call returns, or `asyncio.wait_for` gives up. -/
  | left

namespace RelaunchSystem

def start : RelaunchSystem := ⟨.empty, none⟩

def step (s : RelaunchSystem) : RelaunchEvent → Option RelaunchSystem
  | .joined id => some { s with nodes := s.nodes.insert id true }
  | .died id => if id ∈ s.nodes then some { s with nodes := s.nodes.insert id false } else none
  | .called =>
    if s.call = none then
      some { s with call := some ⟨s.nodes, s.nodes.items.length, [], .relaunching⟩ }
    else none
  | .relaunched ids =>
    match s.call with
    | some ⟨before, total, _, .relaunching⟩ =>
      -- when no node was relaunched, the call returns
      if ids = [] then some { s with call := none }
      else some { s with call := some ⟨before, total, ids, .removing ids⟩ }
    | _ => none
  | .checked => s.call.map fun w ↦ { s with call := some (w.check s.nodes) }
  | .left => some { s with call := none }

end RelaunchSystem

namespace NodeRelaunch

/-- The cluster is whole again: no relaunched node is alive, the other nodes that were alive still
are, and as many others are alive as were relaunched. -/
structure Whole (w : NodeRelaunch) (nodes : RayNodes) : Prop where
  removed : ∀ id ∈ w.relaunched, id ∉ nodes.running
  others : ∀ id ∈ w.before.running, id ∉ w.relaunched → id ∈ nodes.running
  replaced : (nodes.running.filter fun id ↦ id ∉ w.before.running).length = w.relaunched.length

/-- Both loops end at their next look at the nodes. -/
def LoopsEnd (w : NodeRelaunch) (nodes : RayNodes) : Prop :=
  (∀ left, w.phase = .removing left → (w.check nodes).phase = .readying) ∧
    ((w.check nodes).check nodes).phase = .done

/-- The second loop does not end while fewer nodes are alive than before. -/
def NotEarly (w : NodeRelaunch) (nodes : RayNodes) : Prop :=
  nodes.running.length < w.before.running.length →
    (w.check nodes).phase ≠ .done ∧ ((w.check nodes).check nodes).phase ≠ .done

/-- As many of the relaunched nodes were not alive as were listed dead. -/
def CountsAlive (w : NodeRelaunch) : Prop :=
  w.before.dead.length + (w.before.running.filter fun id ↦ id ∈ w.relaunched).length ≤
    w.relaunched.length

instance (w : NodeRelaunch) : Decidable w.CountsAlive := inferInstanceAs (Decidable (_ ≤ _))

/-! ### Counting nodes -/

section Counting

variable {w : NodeRelaunch} {nodes : RayNodes}

theorem running_nodup (nodes : RayNodes) : nodes.running.Nodup :=
  nodes.nodup.sublist (List.filter_sublist.map Prod.fst)

theorem length_items (nodes : RayNodes) :
    nodes.items.length = nodes.running.length + nodes.dead.length := by
  rw [RayNodes.running, RayNodes.dead, List.length_map, List.length_map]
  exact List.length_eq_length_filter_add _

/-- What is alive in a cluster that is whole again. -/
theorem Whole.length_running (whole : w.Whole nodes) : nodes.running.length =
    (w.before.running.filter fun id ↦ id ∉ w.relaunched).length + w.relaunched.length := by
  have stayed : (nodes.running.filter fun id ↦ id ∈ w.before.running).Perm
      (w.before.running.filter fun id ↦ id ∉ w.relaunched) := by
    rw [List.perm_ext_iff_of_nodup ((running_nodup _).filter _) ((running_nodup _).filter _)]
    intro id
    simp only [List.mem_filter, decide_eq_true_eq]
    constructor
    · rintro ⟨now, before⟩
      exact ⟨before, fun mem ↦ whole.removed id mem now⟩
    · rintro ⟨before, kept⟩
      exact ⟨whole.others id before kept, before⟩
  rw [← whole.replaced, ← stayed.length_eq]
  have split := List.length_eq_length_filter_add (l := nodes.running)
    fun id ↦ decide (id ∈ w.before.running)
  simpa using split

theorem Whole.total_le_iff (whole : w.Whole nodes) :
    w.before.items.length ≤ nodes.running.length ↔ w.CountsAlive := by
  have split := List.length_eq_length_filter_add (l := w.before.running)
    fun id ↦ decide (id ∈ w.relaunched)
  have kept : (w.before.running.filter fun id ↦ !decide (id ∈ w.relaunched)) =
      w.before.running.filter fun id ↦ id ∉ w.relaunched := by
    apply List.filter_congr
    simp
  rw [kept] at split
  rw [whole.length_running, length_items, CountsAlive]
  omega

end Counting

/-! ### One look -/

section Check

variable {w : NodeRelaunch} {nodes : RayNodes}

/-- What holds of a call: the total counts what was listed, and the first loop has only nodes that
were relaunched. -/
structure Kept (w : NodeRelaunch) : Prop where
  total : w.total = w.before.items.length
  removing : ∀ left, w.phase = .removing left → left ⊆ w.relaunched

theorem Kept.check (kept : w.Kept) (nodes : RayNodes) : (w.check nodes).Kept := by
  rcases w with ⟨before, total, relaunched, phase⟩
  cases phase with
  | relaunching => exact kept
  | done => exact kept
  | readying =>
    simp only [NodeRelaunch.check]
    split_ifs
    · exact kept
    · refine ⟨kept.total, ?_⟩
      rintro left ⟨⟩
  | removing left =>
    refine ⟨kept.total, fun left' phase ↦ ?_⟩
    simp only [NodeRelaunch.check] at phase
    split_ifs at phase
    cases phase
    exact List.Subset.trans List.filter_sublist.subset (kept.removing left rfl)

/-- While fewer nodes are alive than the total, the call stays in its loops. -/
theorem check_of_lt (waiting : w.waiting) (few : nodes.running.length < w.total) :
    (w.check nodes).waiting ∧ (w.check nodes).total = w.total := by
  rcases w with ⟨before, total, relaunched, phase⟩
  cases phase with
  | relaunching => cases waiting
  | done => cases waiting
  | readying =>
    simp only [check, if_pos few]
    exact ⟨rfl, trivial⟩
  | removing left =>
    simp only [check]
    refine ⟨?_, trivial⟩
    split_ifs <;> rfl

theorem phase_ne_done (waiting : w.waiting) : w.phase ≠ .done := by
  intro done
  simp [NodeRelaunch.waiting, done] at waiting

theorem notEarly (kept : w.Kept) (waiting : w.waiting) : w.NotEarly nodes := by
  intro few
  have total := length_items w.before
  have below : nodes.running.length < w.total := by
    rw [kept.total]
    omega
  have once := check_of_lt waiting below
  have twice := check_of_lt once.1 (once.2 ▸ below)
  exact ⟨phase_ne_done once.1, phase_ne_done twice.1⟩

/-- When no relaunched node is alive, the first loop ends. -/
theorem check_removing (kept : w.Kept) (removed : ∀ id ∈ w.relaunched, id ∉ nodes.running)
    {left : List String} (phase : w.phase = .removing left) :
    w.check nodes = { w with phase := .readying } := by
  have none : (left.filter fun node ↦ node ∈ nodes.running) = [] := by
    rw [List.filter_eq_nil_iff]
    intro id mem
    simpa using removed id (kept.removing left phase mem)
  rw [check, phase]
  simp only [none, if_true]

theorem check_readying (phase : w.phase = .readying) :
    w.check nodes = if nodes.running.length < w.total then w else { w with phase := .done } := by
  rw [check, phase]

/-- When no relaunched node is alive, two looks are enough exactly if the total is reached. -/
theorem check_check_done_iff (kept : w.Kept) (waiting : w.waiting)
    (removed : ∀ id ∈ w.relaunched, id ∉ nodes.running) :
    ((w.check nodes).check nodes).phase = .done ↔ w.total ≤ nodes.running.length := by
  by_cases few : nodes.running.length < w.total
  · have once := check_of_lt waiting few
    have twice := check_of_lt once.1 (once.2 ▸ few)
    exact iff_of_false (phase_ne_done twice.1) (Nat.not_le.mpr few)
  · refine iff_of_true ?_ (Nat.not_lt.mp few)
    cases phase : w.phase with
    | relaunching => simp [NodeRelaunch.waiting, phase] at waiting
    | done => simp [NodeRelaunch.waiting, phase] at waiting
    | readying =>
      rw [check_readying phase, if_neg few]
      rfl
    | removing left =>
      rw [check_removing kept removed phase, check_readying rfl]
      simp only [if_neg few]

end Check

end NodeRelaunch

namespace RelaunchSystem

open NodeRelaunch

variable {s t : RelaunchSystem} {w : NodeRelaunch}

/-- Each step keeps what holds of the call. -/
theorem kept_step {e : RelaunchEvent} (kept : ∀ w, s.call = some w → w.Kept)
    (taken : s.step e = some t) : ∀ w, t.call = some w → w.Kept := by
  cases e with
  | joined id =>
    cases taken
    exact kept
  | died id =>
    simp only [step] at taken
    split_ifs at taken
    cases taken
    exact kept
  | called =>
    simp only [step] at taken
    split_ifs at taken
    cases taken
    rintro w ⟨⟩
    refine ⟨rfl, ?_⟩
    rintro left ⟨⟩
  | relaunched ids =>
    simp only [step] at taken
    split at taken
    · next before total relaunched call =>
      split_ifs at taken
      · cases taken
        rintro w ⟨⟩
      · cases taken
        rintro w ⟨⟩
        refine ⟨(kept _ call).total, ?_⟩
        rintro left ⟨⟩
        exact List.Subset.refl ids
    · cases taken
  | checked =>
    rcases Option.map_eq_some_iff.mp taken with ⟨w, call, rfl⟩
    rintro w' ⟨⟩
    exact (kept w call).check s.nodes
  | left =>
    cases taken
    rintro w ⟨⟩

theorem kept_of_run {events : List RelaunchEvent} (run : Run step anyStep start events s) :
    ∀ w, s.call = some w → w.Kept := by
  refine run.invariant (P := fun s ↦ ∀ w, s.call = some w → w.Kept) ?_ ?_
  · rintro w ⟨⟩
  · exact fun _ _ _ kept _ taken ↦ kept_step kept taken

/-- In every state of every run, waiting ends when the cluster is whole, and not before, exactly if
no more nodes were listed dead when the total was taken than relaunched nodes were not alive. -/
theorem loopsEnd_iff {events : List RelaunchEvent} (run : Run step anyStep start events s)
    (call : s.call = some w) (waiting : w.waiting) :
    (w.Whole s.nodes → w.LoopsEnd s.nodes) ∧ w.NotEarly s.nodes ↔
      (w.Whole s.nodes → w.CountsAlive) := by
  have kept := kept_of_run run w call
  have ends : w.Whole s.nodes → (w.LoopsEnd s.nodes ↔ w.CountsAlive) := by
    intro whole
    rw [LoopsEnd, check_check_done_iff kept waiting whole.removed, kept.total,
      whole.total_le_iff]
    apply and_iff_right
    intro left phase
    rw [check_removing kept whole.removed phase]
  constructor
  · rintro ⟨loops, -⟩ whole
    exact (ends whole).mp (loops whole)
  · intro counts
    exact ⟨fun whole ↦ (ends whole).mpr (counts whole), notEarly kept waiting⟩

/-- One of two nodes is replaced. -/
theorem loopsEnd_iff_replaced :
    ∃ s w, Run step anyStep start
        [.joined "a", .joined "b", .called, .relaunched ["b"], .died "b", .joined "c"] s ∧
      s.call = some w ∧ w.Whole s.nodes ∧ w.LoopsEnd s.nodes := by
  let w : NodeRelaunch := ⟨⟨[("a", true), ("b", true)], by decide⟩, 2, ["b"], .removing ["b"]⟩
  let s : RelaunchSystem := ⟨⟨[("a", true), ("b", false), ("c", true)], by decide⟩, some w⟩
  have run : Run step anyStep start
      [.joined "a", .joined "b", .called, .relaunched ["b"], .died "b", .joined "c"] s :=
    run_of_foldlM (by decide +kernel)
  have whole : w.Whole s.nodes := ⟨by decide, by decide, by decide⟩
  have ends := (loopsEnd_iff run rfl rfl).mpr fun _ ↦ (by decide : w.CountsAlive)
  exact ⟨s, w, run, rfl, whole, ends.1 whole⟩

/-- A node had died before, and Ray still lists it. -/
theorem dead_node_never_ends :
    ∃ s w, Run step anyStep start
        [.joined "a", .joined "b", .joined "c", .died "a", .called, .relaunched ["c"], .died "c",
          .joined "d", .checked] s ∧
      s.call = some w ∧ w.Whole s.nodes ∧ w.check s.nodes = w ∧ ¬w.LoopsEnd s.nodes := by
  let w : NodeRelaunch :=
    ⟨⟨[("a", false), ("b", true), ("c", true)], by decide⟩, 3, ["c"], .readying⟩
  let s : RelaunchSystem :=
    ⟨⟨[("a", false), ("b", true), ("c", false), ("d", true)], by decide⟩, some w⟩
  have run : Run step anyStep start
      [.joined "a", .joined "b", .joined "c", .died "a", .called, .relaunched ["c"], .died "c",
        .joined "d", .checked] s :=
    run_of_foldlM (by decide +kernel)
  have stays : w.check s.nodes = w := by decide
  refine ⟨s, w, run, rfl, ⟨by decide, by decide, by decide⟩, stays, ?_⟩
  rintro ⟨-, ends⟩
  exact absurd ends (by decide)

end RelaunchSystem

end ProbingBaselines.Dlrover
