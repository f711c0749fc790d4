import Mathlib.Data.List.Infix
import ProbingBaselines.Lib.TreePaths
import ProbingBaselines.XpuTimer.RankRanges

/-!
# The trie of stacks

`StackTrie` (`py_xpu_timer/stack_viewer.py:21-93`) gathers the stacks of all ranks: an insert adds
the rank to each node below the root on the way of the stack, which is cut at its first word with
`lto_priv`, and marks the last node. The lines of the flame graph are the marked nodes, one for each
stack, with the ranks of each prefix of it.
-/

namespace ProbingBaselines.XpuTimer

open Lib

/-- The fields of a node; `stack_viewer.py:21-25`. -/
structure TrieLabel where
  isEndOfStack : Bool
  ranks : Finset Nat

/-- `TrieNode`, with its children under their words. -/
abbrev TrieNode := KeyedTree TrieLabel String Empty

abbrev TrieChildren := KeyedForest TrieLabel String Empty

namespace TrieLabel

def new : TrieLabel := ⟨false, ∅⟩

def addRank (label : TrieLabel) (rank : Nat) : TrieLabel :=
  { label with ranks := insert rank label.ranks }

/-- The last node of a stack; `stack_viewer.py:45-46`. -/
def finish (label : TrieLabel) (rank : Nat) : TrieLabel :=
  { label.addRank rank with isEndOfStack := true }

end TrieLabel

/-- `"lto_priv" in word`. -/
def hasLtoPriv (word : String) : Bool := decide ("lto_priv".toList <:+: word.toList)

/-- A stack up to its first word with `lto_priv`. -/
def cutStack (words : List String) : List String := words.takeWhile fun word ↦ !hasLtoPriv word

namespace TrieNode

def new : TrieNode := .node .new .nil

def label : TrieNode → TrieLabel
  | .node label _ => label
  | .leaf e => nomatch e

def addRank (rank : Nat) : TrieNode → TrieNode
  | .node label children => .node (label.addRank rank) children
  | .leaf e => nomatch e

/-- `insert` from a node on; `stack_viewer.py:36-46`. -/
def insert (rank : Nat) : TrieNode → List String → TrieNode
  | .leaf e, _ => nomatch e
  | .node label children, [] => .node (label.finish rank) children
  | .node label children, word :: words =>
    if hasLtoPriv word then .node (label.finish rank) children
    else
      let child := (children.get? word).getD TrieNode.new
      .node label (children.set word (insert rank (addRank rank child) words))

end TrieNode

/-- `_traverse_with_all_stack`; `stack_viewer.py:84-90`. -/
def traverseWithAllStack (allRanks : Finset Nat) : TrieChildren → List String → List String
  | .nil, _ => []
  | .cons word (.node label children) rest, path =>
    let rankStr := formatRankStr allRanks label.ranks
    (if label.isEndOfStack then [";".intercalate (path ++ [word]) ++ rankStr] else []) ++
      traverseWithAllStack allRanks children (path ++ [word ++ rankStr]) ++
      traverseWithAllStack allRanks rest path
  | .cons _ (.leaf e) _, _ => nomatch e

/-- An insert: the words and the rank. -/
abbrev StackInsert := List String × Nat

/-- `StackTrie` after some inserts. -/
def stackTrie (inserts : List StackInsert) : TrieNode :=
  inserts.foldl (fun root i ↦ TrieNode.insert i.2 root i.1) TrieNode.new

/-- `__iter__`; `stack_viewer.py:92-93`. -/
def trieLines (allRanks : Finset Nat) : TrieNode → List String
  | .node _ children => traverseWithAllStack allRanks children []
  | .leaf e => nomatch e

/-! ### What the inserts are for -/

/-- The ranks with a stack that starts with these words, once cut. -/
def ranksWith (inserts : List StackInsert) (stack : List String) : Finset Nat :=
  ((inserts.filter fun i ↦ stack <+: cutStack i.1).map Prod.snd).toFinset

/-- Each word with the ranks of the prefix that ends there. -/
def annotate (allRanks : Finset Nat) (ranksOf : List String → Finset Nat) (stack : List String) :
    List String :=
  stack.mapIdx fun i word ↦ word ++ formatRankStr allRanks (ranksOf (stack.take (i + 1)))

/-- The line of a stack. -/
def stackLine (allRanks : Finset Nat) (ranksOf : List String → Finset Nat) (stack : List String) :
    String :=
  ";".intercalate (annotate allRanks ranksOf stack)

theorem mem_ranksWith {inserts : List StackInsert} {stack : List String} {rank : Nat} :
    rank ∈ ranksWith inserts stack ↔ ∃ i ∈ inserts, stack <+: cutStack i.1 ∧ i.2 = rank := by
  rw [ranksWith, List.mem_toFinset, List.mem_map]
  constructor
  · rintro ⟨i, mem, eq⟩
    rw [List.mem_filter, decide_eq_true_iff] at mem
    exact ⟨i, mem.1, mem.2, eq⟩
  · rintro ⟨i, mem, starts, eq⟩
    exact ⟨i, List.mem_filter.mpr ⟨mem, decide_eq_true starts⟩, eq⟩

/-! ### The labels after an insert -/

namespace TrieNode

def labelAt (t : TrieNode) (path : List String) : Option TrieLabel :=
  (KeyedTree.at? t path).map TrieNode.label

theorem labelAt_nil (t : TrieNode) : labelAt t [] = some (label t) := by
  rw [labelAt, KeyedTree.at?_nil, Option.map_some]

theorem labelAt_cons (l : TrieLabel) (children : TrieChildren) (word : String)
    (path : List String) :
    labelAt (.node l children) (word :: path) =
      (children.get? word).bind fun child ↦ labelAt child path := by
  rw [labelAt, KeyedTree.at?_node, Option.map_bind]
  rfl

/-- A new node has nothing below it. -/
theorem labelAt_new {path : List String} (below : path ≠ []) : labelAt new path = none := by
  cases path with
  | nil => exact absurd rfl below
  | cons word path => rfl

/-- Adding a rank to a node leaves those below it alone. -/
theorem labelAt_addRank (t : TrieNode) (rank : Nat) {path : List String} (below : path ≠ []) :
    labelAt (addRank rank t) path = labelAt t path := by
  match t, path with
  | .leaf e, _ => nomatch e
  | .node _ _, [] => exact absurd rfl below
  | .node _ _, _ :: _ => rfl

theorem label_addRank (t : TrieNode) (rank : Nat) :
    label (addRank rank t) = (label t).addRank rank := by
  match t with
  | .leaf e => nomatch e
  | .node _ _ => rfl

theorem cutStack_cons_of_lto {word : String} {words : List String} (h : hasLtoPriv word = true) :
    cutStack (word :: words) = [] := by
  rw [cutStack, List.takeWhile_cons_of_neg (by simp [h])]

theorem cutStack_cons {word : String} {words : List String} (h : hasLtoPriv word = false) :
    cutStack (word :: words) = word :: cutStack words := by
  rw [cutStack, List.takeWhile_cons_of_pos (by simp [h]), cutStack]

/-- The label of the node itself after an insert. -/
theorem label_insert (t : TrieNode) (rank : Nat) (words : List String) :
    label (insert rank t words) =
      if cutStack words = [] then (label t).finish rank else label t := by
  match t, words with
  | .leaf e, _ => nomatch e
  | .node _ _, [] => rfl
  | .node l children, word :: words =>
    cases lto : hasLtoPriv word with
    | true =>
      rw [insert, if_pos lto, if_pos (cutStack_cons_of_lto lto)]
      rfl
    | false =>
      rw [insert, if_neg (by simp [lto]), cutStack_cons lto, if_neg (List.cons_ne_nil _ _)]
      rfl

/-- The label that a stack's insert leaves at a prefix of it. -/
def visited (stack path : List String) (rank : Nat) (old : TrieLabel) : TrieLabel where
  isEndOfStack := old.isEndOfStack || decide (path = stack)
  ranks := Insert.insert rank old.ranks

/-- Below a child that may be new. -/
theorem labelAt_child (children : TrieChildren) (word : String) {path : List String}
    (below : path ≠ []) :
    labelAt ((children.get? word).getD TrieNode.new) path =
      (children.get? word).bind fun child ↦ labelAt child path := by
  cases children.get? word with
  | none => exact labelAt_new below
  | some child => rfl

/-- A child that may be new, after the insert of what is left of the stack. -/
theorem labelAt_insert_child (children : TrieChildren) (rank : Nat) (word : String)
    (words : List String) :
    labelAt (insert rank (addRank rank ((children.get? word).getD TrieNode.new)) words) [] =
      if [word] <+: word :: cutStack words then
        some (visited (word :: cutStack words) [word] rank
          (((children.get? word).bind fun child ↦ labelAt child []).getD .new))
      else (children.get? word).bind fun child ↦ labelAt child [] := by
  have old : ((children.get? word).bind fun child ↦ labelAt child []).getD .new =
      label ((children.get? word).getD TrieNode.new) := by
    cases children.get? word with
    | none => rfl
    | some child =>
      rw [Option.bind_some, labelAt_nil]
      rfl
  rw [if_pos (by simp), labelAt_nil, label_insert, label_addRank, old]
  generalize label ((children.get? word).getD TrieNode.new) = l
  by_cases last : cutStack words = []
  · simp [last, visited, TrieLabel.finish, TrieLabel.addRank]
  · simp [last, visited, TrieLabel.addRank, Ne.symm last]

/-- An insert visits the prefixes of the cut stack and leaves the other nodes alone. -/
theorem labelAt_insert (t : TrieNode) (rank : Nat) (words path : List String) (below : path ≠ []) :
    labelAt (insert rank t words) path =
      if path <+: cutStack words then
        some (visited (cutStack words) path rank ((labelAt t path).getD .new))
      else labelAt t path := by
  induction words generalizing t path with
  | nil =>
    match t, path with
    | .leaf e, _ => nomatch e
    | .node _ _, [] => exact absurd rfl below
    | .node _ _, word :: path =>
      rw [if_neg]
      · rfl
      · rw [cutStack, List.takeWhile_nil, List.prefix_nil]
        exact List.cons_ne_nil _ _
  | cons word words ih =>
    match t, path with
    | .leaf e, _ => nomatch e
    | .node _ _, [] => exact absurd rfl below
    | .node l children, word' :: path =>
      cases lto : hasLtoPriv word with
      | true =>
        rw [insert, if_pos lto, cutStack_cons_of_lto lto, if_neg]
        · rfl
        · rw [List.prefix_nil]
          exact List.cons_ne_nil _ _
      | false =>
        rw [insert, if_neg (by simp [lto]), cutStack_cons lto, labelAt_cons, labelAt_cons]
        by_cases same : word' = word
        · subst same
          rw [KeyedForest.get?_set_self, Option.bind_some]
          cases path with
          | nil => exact labelAt_insert_child children rank word' words
          | cons next path =>
            have below' : next :: path ≠ [] := List.cons_ne_nil _ _
            rw [ih _ _ below', labelAt_addRank _ _ below', labelAt_child children word' below']
            simp only [List.cons_prefix_cons, true_and, visited, List.cons.injEq]
        · rw [KeyedForest.get?_set_of_ne _ same, if_neg]
          rw [List.cons_prefix_cons]
          exact fun h ↦ same h.1

theorem insert_distinct (t : TrieNode) (rank : Nat) (words : List String)
    (distinct : KeyedTree.Distinct t) : KeyedTree.Distinct (insert rank t words) := by
  induction words generalizing t with
  | nil =>
    match t with
    | .leaf e => nomatch e
    | .node _ _ => exact distinct
  | cons word words ih =>
    match t with
    | .leaf e => nomatch e
    | .node l children =>
      rw [insert]
      split
      · exact distinct
      · apply KeyedForest.set_distinct distinct
        apply ih
        cases get : children.get? word with
        | none => exact trivial
        | some child =>
          have kept := KeyedForest.get?_distinct distinct get
          match child with
          | .leaf e => nomatch e
          | .node _ _ => exact kept

end TrieNode

/-! ### The trie of all inserts -/

open TrieNode

theorem stackTrie_concat (inserts : List StackInsert) (i : StackInsert) :
    stackTrie (inserts ++ [i]) = TrieNode.insert i.2 (stackTrie inserts) i.1 := by
  rw [stackTrie, List.foldl_append]
  rfl

theorem ranksWith_concat (inserts : List StackInsert) (i : StackInsert) (stack : List String) :
    ranksWith (inserts ++ [i]) stack =
      if stack <+: cutStack i.1 then insert i.2 (ranksWith inserts stack)
      else ranksWith inserts stack := by
  ext rank
  rw [mem_ranksWith]
  split
  · next starts =>
    rw [Finset.mem_insert, mem_ranksWith]
    simp only [List.mem_append, List.mem_singleton]
    constructor
    · rintro ⟨j, mem | rfl, starts', eq⟩
      · exact .inr ⟨j, mem, starts', eq⟩
      · exact .inl eq.symm
    · rintro (rfl | ⟨j, mem, starts', eq⟩)
      · exact ⟨i, .inr rfl, starts, rfl⟩
      · exact ⟨j, .inl mem, starts', eq⟩
  · next apart =>
    rw [mem_ranksWith]
    simp only [List.mem_append, List.mem_singleton]
    constructor
    · rintro ⟨j, mem | rfl, starts', eq⟩
      · exact ⟨j, mem, starts', eq⟩
      · exact absurd starts' apart
    · rintro ⟨j, mem, starts', eq⟩
      exact ⟨j, .inl mem, starts', eq⟩

/-- What a node below the root says of the inserts. -/
def labelOf (inserts : List StackInsert) (path : List String) : TrieLabel where
  isEndOfStack := decide (∃ i ∈ inserts, cutStack i.1 = path)
  ranks := ranksWith inserts path

/-- No stack starts with the path. -/
theorem labelOf_eq_new {inserts : List StackInsert} {path : List String}
    (none : ¬∃ i ∈ inserts, path <+: cutStack i.1) : labelOf inserts path = .new := by
  have unmarked : ¬∃ i ∈ inserts, cutStack i.1 = path := by
    rintro ⟨i, mem, rfl⟩
    exact none ⟨i, mem, List.prefix_refl _⟩
  have empty : ranksWith inserts path = ∅ := by
    rw [Finset.eq_empty_iff_forall_notMem]
    intro rank mem
    rcases mem_ranksWith.mp mem with ⟨i, hi, starts, -⟩
    exact none ⟨i, hi, starts⟩
  rw [labelOf, empty, decide_eq_false unmarked, TrieLabel.new]

/-- By induction on the inserts: a path below the root is in the trie if a stack starts with it. -/
theorem labelAt_stackTrie (inserts : List StackInsert) {path : List String} (below : path ≠ []) :
    labelAt (stackTrie inserts) path =
      if ∃ i ∈ inserts, path <+: cutStack i.1 then some (labelOf inserts path) else none := by
  induction inserts using List.reverseRecOn with
  | nil =>
    rw [if_neg (by simp)]
    exact labelAt_new below
  | append_singleton inserts i ih =>
    have old : (labelAt (stackTrie inserts) path).getD .new = labelOf inserts path := by
      rw [ih]
      split
      · rfl
      · next none => rw [labelOf_eq_new none, Option.getD_none]
    rw [stackTrie_concat, labelAt_insert _ _ _ _ below, old, ih]
    by_cases starts : path <+: cutStack i.1
    · rw [if_pos starts, if_pos ⟨i, by simp, starts⟩]
      simp only [visited, labelOf, ranksWith_concat, if_pos starts]
      congr 2
      rw [← Bool.decide_or]
      apply decide_eq_decide.mpr
      constructor
      · rintro (⟨j, mem, eq⟩ | rfl)
        · exact ⟨j, List.mem_append_left _ mem, eq⟩
        · exact ⟨i, by simp, rfl⟩
      · rintro ⟨j, mem, eq⟩
        rcases List.mem_append.mp mem with mem | last
        · exact .inl ⟨j, mem, eq⟩
        · rw [List.mem_singleton] at last
          exact .inr (by rw [← eq, last])
    · rw [if_neg starts]
      have same : (∃ j ∈ inserts ++ [i], path <+: cutStack j.1) ↔
          ∃ j ∈ inserts, path <+: cutStack j.1 := by
        simp [starts]
      have other : cutStack i.1 ≠ path := by
        rintro rfl
        exact starts (List.prefix_refl _)
      simp only [same, labelOf, ranksWith_concat, if_neg starts]
      have ends : (∃ j ∈ inserts ++ [i], cutStack j.1 = path) ↔
          ∃ j ∈ inserts, cutStack j.1 = path := by
        simp [other]
      simp only [ends]

/-- The root gets the ranks of the stacks of which nothing is left. -/
theorem mem_ranks_root (inserts : List StackInsert) (rank : Nat) :
    rank ∈ (label (stackTrie inserts)).ranks ↔
      ∃ i ∈ inserts, cutStack i.1 = [] ∧ i.2 = rank := by
  induction inserts using List.reverseRecOn with
  | nil => simp [stackTrie, TrieNode.new, label, TrieLabel.new]
  | append_singleton inserts i ih =>
    rw [stackTrie_concat, label_insert]
    by_cases empty : cutStack i.1 = []
    · rw [if_pos empty, TrieLabel.finish, TrieLabel.addRank, Finset.mem_insert, ih]
      constructor
      · rintro (rfl | ⟨j, mem, empty', eq⟩)
        · exact ⟨i, by simp, empty, rfl⟩
        · exact ⟨j, List.mem_append_left _ mem, empty', eq⟩
      · rintro ⟨j, mem, empty', eq⟩
        rcases List.mem_append.mp mem with old | new
        · exact .inr ⟨j, old, empty', eq⟩
        · exact .inl (by rw [← eq, List.mem_singleton.mp new])
    · rw [if_neg empty, ih]
      constructor
      · exact fun ⟨j, mem, rest⟩ ↦ ⟨j, List.mem_append_left _ mem, rest⟩
      · rintro ⟨j, mem, empty', eq⟩
        rcases List.mem_append.mp mem with old | new
        · exact ⟨j, old, empty', eq⟩
        · rw [List.mem_singleton.mp new] at empty'
          exact absurd empty' empty

theorem stackTrie_distinct (inserts : List StackInsert) :
    KeyedTree.Distinct (stackTrie inserts) := by
  induction inserts using List.reverseRecOn with
  | nil => exact trivial
  | append_singleton inserts i ih =>
    rw [stackTrie_concat]
    exact insert_distinct _ _ _ ih

/-! ### The lines -/

theorem intercalate_concat_append (sep : String) (texts : List String) (a b : String) :
    sep.intercalate (texts ++ [a]) ++ b = sep.intercalate (texts ++ [a ++ b]) := by
  by_cases none : texts = []
  · simp [none]
  · rw [String.intercalate_append_of_ne_nil none (by simp),
      String.intercalate_append_of_ne_nil none (by simp), String.intercalate_singleton,
      String.intercalate_singleton, String.append_assoc]

theorem annotate_concat (allRanks : Finset Nat) (ranksOf : List String → Finset Nat)
    (path : List String) (word : String) :
    annotate allRanks ranksOf (path ++ [word]) = annotate allRanks ranksOf path ++
      [word ++ formatRankStr allRanks (ranksOf (path ++ [word]))] := by
  have whole : (path ++ [word]).take (path.length + 1) = path ++ [word] := by
    apply List.take_of_length_le
    simp
  rw [annotate, List.mapIdx_append, List.mapIdx_singleton, Nat.zero_add, whole, annotate]
  congr 1
  apply List.ext_getElem
  · simp
  · intro i hi _
    rw [List.length_mapIdx] at hi
    rw [List.getElem_mapIdx, List.getElem_mapIdx, List.take_append_of_le_length (by omega)]

/-- The lines of the children of a node, by induction on the children. The path has the ranks of
the nodes on the way. -/
theorem traverseWithAllStack_eq (allRanks : Finset Nat) (ranksOf : List String → Finset Nat)
    (f : TrieChildren) (path : List String)
    (agrees : ∀ e ∈ f.nodes, (label e.2).ranks = ranksOf (path ++ e.1)) :
    traverseWithAllStack allRanks f (annotate allRanks ranksOf path) =
      (f.nodes.filter fun e ↦ (label e.2).isEndOfStack).map fun e ↦
        stackLine allRanks ranksOf (path ++ e.1) := by
  match f with
  | .nil => rfl
  | .cons _ (.leaf e) _ => nomatch e
  | .cons word (.node l children) rest =>
    rw [KeyedForest.nodes, KeyedTree.nodes] at agrees
    have here : l.ranks = ranksOf (path ++ [word]) := agrees ([word], .node l children) (by simp)
    have below : ∀ e ∈ children.nodes, (label e.2).ranks = ranksOf ((path ++ [word]) ++ e.1) := by
      intro e he
      rw [List.append_assoc]
      exact agrees (word :: e.1, e.2)
        (List.mem_append_left _ (List.mem_cons_of_mem _ (List.mem_map.mpr ⟨e, he, rfl⟩)))
    have later : ∀ e ∈ rest.nodes, (label e.2).ranks = ranksOf (path ++ e.1) :=
      fun e he ↦ agrees e (List.mem_append_right _ he)
    have inner := traverseWithAllStack_eq allRanks ranksOf children (path ++ [word]) below
    have outer := traverseWithAllStack_eq allRanks ranksOf rest path later
    rw [annotate_concat, ← here] at inner
    rw [traverseWithAllStack, inner, outer, KeyedForest.nodes, KeyedTree.nodes,
      List.filter_append, List.filter_cons, List.filter_map, List.map_append,
      intercalate_concat_append, here, ← annotate_concat]
    cases ends : l.isEndOfStack with
    | true => simp [label, ends, stackLine, Function.comp_def]
    | false => simp [label, ends, stackLine, Function.comp_def]

/-! ### The stacks of a trie -/

/-- The paths of the marked nodes below the root. -/
def endsOf : TrieNode → List (List String)
  | .node _ children => (children.nodes.filter fun e ↦ (label e.2).isEndOfStack).map Prod.fst
  | .leaf e => nomatch e

theorem endsOf_nodup (t : TrieNode) (distinct : KeyedTree.Distinct t) : (endsOf t).Nodup := by
  match t with
  | .leaf e => nomatch e
  | .node _ children =>
    have once : (children.nodes.map Prod.fst).Nodup := children.nodes_nodup distinct
    exact List.Nodup.sublist (List.Sublist.map Prod.fst List.filter_sublist) once

theorem mem_endsOf (t : TrieNode) (distinct : KeyedTree.Distinct t) (path : List String) :
    path ∈ endsOf t ↔ path ≠ [] ∧ ∃ l, labelAt t path = some l ∧ l.isEndOfStack = true := by
  match t with
  | .leaf e => nomatch e
  | .node l children =>
    have nodes : ∀ node, (path, node) ∈ children.nodes ↔
        path ≠ [] ∧ KeyedTree.at? (.node l children) path = some node :=
      fun node ↦ KeyedTree.mem_nodes (t := .node l children) distinct
    rw [endsOf, List.mem_map]
    simp only [List.mem_filter, labelAt, Option.map_eq_some_iff]
    constructor
    · rintro ⟨⟨_, node⟩, ⟨mem, marked⟩, rfl⟩
      have found := (nodes node).mp mem
      exact ⟨found.1, _, ⟨node, found.2, rfl⟩, marked⟩
    · rintro ⟨below, _, ⟨node, found, rfl⟩, marked⟩
      exact ⟨(path, node), ⟨(nodes node).mpr ⟨below, found⟩, marked⟩, rfl⟩

theorem mem_endsOf_stackTrie (inserts : List StackInsert) (stack : List String) :
    stack ∈ endsOf (stackTrie inserts) ↔ stack ≠ [] ∧ ∃ i ∈ inserts, cutStack i.1 = stack := by
  rw [mem_endsOf _ (stackTrie_distinct inserts)]
  apply and_congr_right
  intro below
  rw [labelAt_stackTrie inserts below]
  constructor
  · rintro ⟨l, found, marked⟩
    split at found
    · cases found
      exact of_decide_eq_true marked
    · cases found
  · rintro ⟨i, mem, rfl⟩
    rw [if_pos ⟨i, mem, List.prefix_refl _⟩]
    exact ⟨_, rfl, decide_eq_true ⟨i, mem, rfl⟩⟩

/-- A node below the root has the ranks of the stacks that start with its path. -/
theorem ranks_of_labelAt {inserts : List StackInsert} {path : List String} {l : TrieLabel}
    (below : path ≠ []) (found : labelAt (stackTrie inserts) path = some l) :
    l.ranks = ranksWith inserts path := by
  rw [labelAt_stackTrie inserts below] at found
  split at found
  · cases found
    rfl
  · cases found

/-- The lines are those of the stacks. -/
theorem trieLines_stackTrie (allRanks : Finset Nat) (inserts : List StackInsert) :
    trieLines allRanks (stackTrie inserts) =
      (endsOf (stackTrie inserts)).map (stackLine allRanks (ranksWith inserts)) := by
  have distinct := stackTrie_distinct inserts
  have ranks : ∀ path l, path ≠ [] → labelAt (stackTrie inserts) path = some l →
      l.ranks = ranksWith inserts path := fun _ _ ↦ ranks_of_labelAt
  generalize stackTrie inserts = t at distinct ranks
  match t with
  | .leaf e => nomatch e
  | .node l children =>
    have agrees : ∀ e ∈ children.nodes, (label e.2).ranks = ranksWith inserts ([] ++ e.1) := by
      rintro ⟨path, node⟩ mem
      have found := (KeyedTree.mem_nodes (t := .node l children) distinct).mp mem
      apply ranks path _ found.1
      rw [labelAt, found.2, Option.map_some]
    have lines := traverseWithAllStack_eq allRanks (ranksWith inserts) children [] agrees
    rw [trieLines, endsOf, List.map_map]
    exact lines

theorem ranksWith_perm {inserts inserts' : List StackInsert} (perm : inserts'.Perm inserts)
    (stack : List String) : ranksWith inserts' stack = ranksWith inserts stack := by
  ext rank
  simp only [mem_ranksWith, perm.mem_iff]

/-- Below the root, the ranks of a node are those with a stack that starts with its path, and those
of the root are the ones of which no word is left; the lines are those of the stacks, one for each,
in whatever order the inserts came. -/
theorem stackTrie_spec (inserts : List StackInsert) :
    (∀ path node, path ≠ [] → KeyedTree.at? (stackTrie inserts) path = some node →
      ∀ rank, rank ∈ (label node).ranks ↔
        ∃ i ∈ inserts, path <+: cutStack i.1 ∧ i.2 = rank) ∧
    (∀ rank, rank ∈ (label (stackTrie inserts)).ranks ↔
      ∃ i ∈ inserts, cutStack i.1 = [] ∧ i.2 = rank) ∧
    ∀ allRanks, ∃ ends : List (List String), ends.Nodup ∧
      (∀ stack, stack ∈ ends ↔ stack ≠ [] ∧ ∃ i ∈ inserts, cutStack i.1 = stack) ∧
      trieLines allRanks (stackTrie inserts) =
        ends.map (stackLine allRanks (ranksWith inserts)) ∧
      ∀ inserts', inserts'.Perm inserts →
        (trieLines allRanks (stackTrie inserts')).Perm
          (trieLines allRanks (stackTrie inserts)) := by
  refine ⟨?_, mem_ranks_root inserts, ?_⟩
  · intro path node below found rank
    have found' : labelAt (stackTrie inserts) path = some (label node) := by
      rw [labelAt, found, Option.map_some]
    rw [ranks_of_labelAt below found', mem_ranksWith]
  · intro allRanks
    have once := endsOf_nodup _ (stackTrie_distinct inserts)
    refine ⟨endsOf (stackTrie inserts), once, mem_endsOf_stackTrie inserts,
      trieLines_stackTrie allRanks inserts, ?_⟩
    intro inserts' perm
    have once' := endsOf_nodup _ (stackTrie_distinct inserts')
    have same : (endsOf (stackTrie inserts')).Perm (endsOf (stackTrie inserts)) := by
      apply (List.perm_ext_iff_of_nodup once' once).mpr
      intro stack
      simp only [mem_endsOf_stackTrie, perm.mem_iff]
    have ranks : ranksWith inserts' = ranksWith inserts := funext (ranksWith_perm perm)
    rw [trieLines_stackTrie, trieLines_stackTrie, ranks]
    exact same.map _

/-- The root has the rank of a stack only if nothing is left of the stack. -/
theorem stackTrie_root :
    ¬∀ inserts path node, KeyedTree.at? (stackTrie inserts) path = some node →
      ∀ rank, rank ∈ (label node).ranks ↔
        ∃ i ∈ inserts, path <+: cutStack i.1 ∧ i.2 = rank := by
  intro every
  have root := every [(["a"], 0)] [] _ rfl 0
  have mem := root.mpr ⟨(["a"], 0), List.mem_singleton_self _, List.nil_prefix, rfl⟩
  exact absurd mem (by decide)

end ProbingBaselines.XpuTimer
