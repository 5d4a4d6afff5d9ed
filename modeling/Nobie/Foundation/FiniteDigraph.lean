/-
# Finite directed graphs

A finite directed graph is a list of edges together with the edges that leave each
vertex, in the order a search takes them. The search walks the graph depth first
over an explicit stack; it finds exactly the vertices that can be reached by one
edge or more. Then come relations to which one edge is added, and the question
whether every vertex lies below one that no edge leads to.
-/

import Mathlib.Data.List.Chain
import Mathlib.Data.List.Count
import Mathlib.Data.Set.Card
import Mathlib.Data.Set.Finite.Lemmas
import Mathlib.Logic.Relation

namespace Nobie.Foundation

open List Relation

universe u v

/-- A path that goes on to one of the vertices leaves fewer to go to. -/
theorem countP_notMem_append_lt {V : Type u} [DecidableEq V] {vertices path : List V} {vertex : V}
    (hvertex : vertex ∈ vertices) (hnew : vertex ∉ path) :
    (vertices.countP fun other => other ∉ path ++ [vertex]) <
      vertices.countP fun other => other ∉ path := by
  rw [countP_eq_length_filter, countP_eq_length_filter]
  have hsublist : (vertices.filter fun other => other ∉ path ++ [vertex]).Sublist
      (vertices.filter fun other => other ∉ path) :=
    monotone_filter_right _ fun other => by simp +contextual
  refine lt_of_le_of_ne hsublist.length_le fun hsame => ?_
  have hmem : vertex ∈ vertices.filter fun other => other ∉ path := by simp [hvertex, hnew]
  rw [← hsublist.eq_of_length hsame] at hmem
  simp at hmem

/-- A finite directed graph with an order on the edges that leave a vertex. -/
structure FiniteDigraph (V : Type u) (E : Type v) [DecidableEq V] where
  edges : List E
  (source target : E → V)
  outgoing : V → List E
  outgoing_perm : ∀ vertex, (outgoing vertex).Perm (edges.filter fun edge => source edge = vertex)

namespace FiniteDigraph

variable {V : Type u} {E : Type v} [DecidableEq V] (graph : FiniteDigraph V E)

/-- An edge leads from the first vertex to the second. -/
def Adjacent (first second : V) : Prop :=
  ∃ edge ∈ graph.edges, graph.source edge = first ∧ graph.target edge = second

variable {vertex : V} {visited : List V} {stack : List E}

variable {edge : E} {start : V}

theorem mem_outgoing :
    edge ∈ graph.outgoing vertex ↔ edge ∈ graph.edges ∧ graph.source edge = vertex := by
  rw [(graph.outgoing_perm vertex).mem_iff, mem_filter, decide_eq_true_eq]

/-- How many edges leave a vertex the search has not visited. -/
def pending (visited : List V) : ℕ := graph.edges.countP fun edge => graph.source edge ∉ visited

/-- Visiting a vertex moves its edges from the pending ones to the stack. -/
theorem pending_visit (hnew : vertex ∉ visited) :
    (graph.outgoing vertex).length + graph.pending (visited ++ [vertex]) =
      graph.pending visited := by
  rw [(graph.outgoing_perm vertex).length_eq, ← countP_eq_length_filter]
  unfold pending
  induction graph.edges with
  | nil => rfl
  | cons edge rest ih =>
    simp only [countP_cons, decide_eq_true_eq, mem_append, mem_singleton] at ih ⊢
    have hedge : ((if graph.source edge = vertex then 1 else 0) +
        if ¬ (graph.source edge ∈ visited ∨ graph.source edge = vertex) then 1 else 0) =
        if graph.source edge ∉ visited then 1 else 0 := by
      by_cases hvertex : graph.source edge = vertex
      · simp [hvertex, hnew]
      · simp [hvertex]
    omega

/-- The search: the head of the list is the top of the stack. -/
def search (visited : List V) (stack : List E) : List V :=
  match stack with
  | [] => visited
  | edge :: rest =>
    if graph.target edge ∈ visited then search visited rest
    else search (visited ++ [graph.target edge])
      (graph.outgoing (graph.target edge) ++ rest)
termination_by stack.length + graph.pending visited
decreasing_by
  · simp
  · next hnew =>
    have := graph.pending_visit hnew
    simp only [List.length_append, List.length_cons]
    omega

/-- The vertices below a vertex, in the order the search finds them. -/
def descendants (start : V) : List V := graph.search [] (graph.outgoing start)

/-! ## What the search finds -/

theorem mem_search_of_visited (h : vertex ∈ visited) : vertex ∈ graph.search visited stack := by
  fun_induction search graph visited stack with
  | case1 => exact h
  | case2 visited edge rest hvisited ih => exact ih h
  | case3 visited edge rest hnew ih => exact ih (mem_append_left _ h)

theorem mem_search_of_stack (h : edge ∈ stack) :
    graph.target edge ∈ graph.search visited stack := by
  fun_induction search graph visited stack with
  | case1 => cases h
  | case2 visited top rest hvisited ih =>
    rcases mem_cons.mp h with rfl | hrest
    · exact graph.mem_search_of_visited hvisited
    · exact ih hrest
  | case3 visited top rest hnew ih =>
    rcases mem_cons.mp h with rfl | hrest
    · exact graph.mem_search_of_visited (mem_append_cons_self)
    · exact ih (mem_append_right _ hrest)

/-- The edges of what has been visited are on the stack or lead to what has been
visited. -/
def Explored (visited : List V) (stack : List E) : Prop :=
  ∀ first ∈ visited, ∀ second, graph.Adjacent first second →
    second ∈ visited ∨ ∃ edge ∈ stack, graph.target edge = second

theorem search_closed (h : graph.Explored visited stack) {first second : V}
    (hfirst : first ∈ graph.search visited stack) (hadjacent : graph.Adjacent first second) :
    second ∈ graph.search visited stack := by
  fun_induction search graph visited stack with
  | case1 =>
    rcases h first hfirst second hadjacent with hsecond | ⟨edge, hedge, -⟩
    · exact hsecond
    · cases hedge
  | case2 visited edge rest hvisited ih =>
    refine ih (fun first hfirst second hadjacent => ?_) hfirst
    rcases h first hfirst second hadjacent with hsecond | ⟨other, hother, rfl⟩
    · exact Or.inl hsecond
    · rcases mem_cons.mp hother with rfl | hrest
      · exact Or.inl hvisited
      · exact Or.inr ⟨other, hrest, rfl⟩
  | case3 visited edge rest hnew ih =>
    refine ih (fun first hfirst second hadjacent => ?_) hfirst
    rcases mem_append.mp hfirst with hfirst | hfirst
    · rcases h first hfirst second hadjacent with hsecond | ⟨other, hother, rfl⟩
      · exact Or.inl (mem_append_left _ hsecond)
      · rcases mem_cons.mp hother with rfl | hrest
        · exact Or.inl (mem_append_cons_self)
        · exact Or.inr ⟨other, mem_append_right _ hrest, rfl⟩
    · rw [mem_singleton] at hfirst
      obtain ⟨other, hedges, hsource, rfl⟩ := hadjacent
      have hother := graph.mem_outgoing.mpr ⟨hedges, hsource.trans hfirst⟩
      exact Or.inr ⟨other, mem_append_left _ hother, rfl⟩

theorem reached_of_mem_search (hvisited : ∀ vertex ∈ visited, TransGen graph.Adjacent start vertex)
    (hstack : ∀ edge ∈ stack, TransGen graph.Adjacent start (graph.target edge))
    (h : vertex ∈ graph.search visited stack) : TransGen graph.Adjacent start vertex := by
  fun_induction search graph visited stack with
  | case1 => exact hvisited vertex h
  | case2 visited edge rest hknown ih =>
    exact ih hvisited (fun other hother => hstack other (mem_cons_of_mem _ hother)) h
  | case3 visited edge rest hnew ih =>
    have hedge := hstack edge mem_cons_self
    refine ih (fun other hother => ?_) (fun other hother => ?_) h
    · rcases mem_append.mp hother with hother | hother
      · exact hvisited other hother
      · rw [mem_singleton] at hother
        exact hother ▸ hedge
    · rcases mem_append.mp hother with hother | hother
      · obtain ⟨hedges, hsource⟩ := graph.mem_outgoing.mp hother
        exact hedge.tail ⟨other, hedges, hsource, rfl⟩
      · exact hstack other (mem_cons_of_mem _ hother)

/-- The search finds exactly what can be reached by one edge or more. -/
theorem mem_descendants_iff :
    vertex ∈ graph.descendants start ↔ TransGen graph.Adjacent start vertex := by
  constructor
  · refine graph.reached_of_mem_search (by simp) fun edge hedge => ?_
    obtain ⟨hedges, hsource⟩ := graph.mem_outgoing.mp hedge
    exact .single ⟨edge, hedges, hsource, rfl⟩
  · intro h
    induction h with
    | single hadjacent =>
      obtain ⟨edge, hedges, hsource, rfl⟩ := hadjacent
      exact graph.mem_search_of_stack (graph.mem_outgoing.mpr ⟨hedges, hsource⟩)
    | tail _ hadjacent ih =>
      exact graph.search_closed (fun _ hfirst => absurd hfirst not_mem_nil) ih hadjacent

end FiniteDigraph

/-! ## Adding an edge to a relation -/

section AddEdge

variable {V : Type u} {adjacent : V → V → Prop} {source target : V}

/-- A relation with one more edge. -/
def AddEdge (adjacent : V → V → Prop) (source target : V) : V → V → Prop :=
  fun first second => adjacent first second ∨ first = source ∧ second = target

variable {first : V}

/-- A path over the larger relation avoids the new edge or can be cut at it. -/
theorem transGen_addEdge {second : V} (h : TransGen (AddEdge adjacent source target) first second) :
    TransGen adjacent first second ∨
      ReflTransGen adjacent first source ∧ ReflTransGen adjacent target second := by
  induction h with
  | single hstep =>
    rcases hstep with hold | ⟨rfl, rfl⟩
    · exact Or.inl (.single hold)
    · exact Or.inr ⟨.refl, .refl⟩
  | tail _ hstep ih =>
    rcases hstep with hold | ⟨rfl, rfl⟩
    · exact ih.imp (·.tail hold) fun h => ⟨h.1, h.2.tail hold⟩
    · exact Or.inr ⟨ih.elim (·.to_reflTransGen) And.left, .refl⟩

/-- An edge closes no cycle if its end does not lead back to its start. -/
theorem acyclic_addEdge (hacyclic : ∀ vertex, ¬ TransGen adjacent vertex vertex)
    (hne : target ≠ source) (hback : ¬ TransGen adjacent target source) (vertex : V) :
    ¬ TransGen (AddEdge adjacent source target) vertex vertex := by
  intro hcycle
  rcases transGen_addEdge hcycle with hold | ⟨hfrom, hto⟩
  · exact hacyclic vertex hold
  · rcases reflTransGen_iff_eq_or_transGen.mp (hto.trans hfrom) with heq | hpath
    · exact hne heq.symm
    · exact hback hpath

/-- A walk of a given number of edges. -/
inductive Walk (adjacent : V → V → Prop) (first : V) : V → ℕ → Prop
  | nil : Walk adjacent first first 0
  | snoc {middle last : V} {length : ℕ} (prior : Walk adjacent first middle length)
      (edge : adjacent middle last) : Walk adjacent first last (length + 1)

variable {last : V} {length : ℕ}

theorem Walk.mono {adjacent' : V → V → Prop}
    (himp : ∀ first second, adjacent first second → adjacent' first second)
    (walk : Walk adjacent first last length) : Walk adjacent' first last length := by
  induction walk with
  | nil => exact .nil
  | snoc _ edge ih => exact ih.snoc (himp _ _ edge)

/-- A walk over the larger relation avoids the new edge or ends below it. -/
theorem walk_addEdge (walk : Walk (AddEdge adjacent source target) first last length) :
    Walk adjacent first last length ∨
      ReflTransGen (AddEdge adjacent source target) target last := by
  induction walk with
  | nil => exact Or.inl .nil
  | snoc _ edge ih =>
    rcases ih with hold | hbelow
    · rcases edge with hedge | ⟨rfl, rfl⟩
      · exact Or.inl (hold.snoc hedge)
      · exact Or.inr .refl
    · exact Or.inr (hbelow.tail edge)

end AddEdge

/-! ## Vertices that no edge leads to -/

section Sources

variable {V : Type u} {adjacent : V → V → Prop}

/-- The vertices a vertex lies below, itself included. -/
def above (adjacent : V → V → Prop) (vertex : V) : Set V :=
  {other | Relation.ReflTransGen adjacent other vertex}

/-- No edge leads to the vertex. -/
def IsSource (adjacent : V → V → Prop) (vertex : V) : Prop := ∀ other, ¬ adjacent other vertex

/-- Every cycle is below a vertex that it does not lead back to. -/
def CyclesEntered (adjacent : V → V → Prop) : Prop :=
  ∀ vertex, Relation.TransGen adjacent vertex vertex →
    ∃ other ∈ above adjacent vertex, ¬ Relation.ReflTransGen adjacent vertex other

theorem above_subset {first second : V} (h : ReflTransGen adjacent first second) :
    above adjacent first ⊆ above adjacent second :=
  fun _ hother => hother.trans h

section

variable (hfinite : {vertex | ∃ other, adjacent vertex other}.Finite)
include hfinite

theorem finite_above (vertex : V) :
    (above adjacent vertex).Finite := by
  refine (hfinite.insert vertex).subset fun other hother => ?_
  rcases ReflTransGen.cases_head hother with rfl | ⟨next, hnext, -⟩
  · exact Set.mem_insert _ _
  · exact Set.mem_insert_of_mem _ ⟨next, hnext⟩

/-- Above every vertex there is one that leads back to all that is above it. -/
theorem exists_minimal_above
    (vertex : V) : ∃ least ∈ above adjacent vertex, ∀ other ∈ above adjacent least,
      ReflTransGen adjacent least other := by
  obtain ⟨least, hleast, hmin⟩ := Set.exists_min_image (above adjacent vertex)
    (fun other => (above adjacent other).ncard) (finite_above hfinite vertex) ⟨vertex, .refl⟩
  refine ⟨least, hleast, fun other hother => ?_⟩
  have hcard := hmin other (hother.trans hleast)
  have heq := Set.eq_of_subset_of_ncard_le (above_subset hother) hcard (finite_above hfinite least)
  have hself : least ∈ above adjacent least := ReflTransGen.refl
  rw [← heq] at hself
  exact hself

/-- In a finite graph every vertex is below a source exactly if every cycle is
entered from outside. -/
theorem below_source_iff :
    (∀ vertex, ∃ source, IsSource adjacent source ∧
      ReflTransGen adjacent source vertex) ↔ CyclesEntered adjacent := by
  constructor
  · intro hsources vertex hcycle
    obtain ⟨source, hsource, hbelow⟩ := hsources vertex
    refine ⟨source, hbelow, fun hback => ?_⟩
    obtain ⟨last, -, hlast⟩ := TransGen.tail'_iff.mp (hcycle.trans_left hback)
    exact hsource last hlast
  · intro hentered vertex
    obtain ⟨least, hleast, hback⟩ := exists_minimal_above hfinite vertex
    refine ⟨least, fun other hother => ?_, hleast⟩
    have hcycle : TransGen adjacent least least :=
      (TransGen.tail' (hback other (.single hother)) hother)
    obtain ⟨entry, hentry, hnot⟩ := hentered least hcycle
    exact hnot (hback entry hentry)

end

end Sources

/-- Among finitely many vertices of an acyclic relation, one leads to none of the others. -/
theorem exists_sink {adjacent : V → V → Prop}
    (hacyclic : ∀ vertex, ¬ TransGen adjacent vertex vertex) {vertices : Set V}
    (hfinite : vertices.Finite) (hne : vertices.Nonempty) :
    ∃ vertex ∈ vertices, ∀ other ∈ vertices, ¬ adjacent vertex other := by
  let below (vertex : V) : Set V := {other ∈ vertices | TransGen adjacent vertex other}
  obtain ⟨least, hleast, hmin⟩ :=
    Set.exists_min_image vertices (fun vertex => (below vertex).ncard) hfinite hne
  refine ⟨least, hleast, ?_⟩
  intro other hother hadjacent
  have hsubset : below other ⊂ below least := by
    refine ⟨fun vertex hvertex => ⟨hvertex.1, .head hadjacent hvertex.2⟩, ?_⟩
    intro hback
    exact hacyclic other (hback ⟨hother, .single hadjacent⟩).2
  have hless := Set.ncard_lt_ncard hsubset (hfinite.subset fun _ hvertex => hvertex.1)
  exact absurd (hmin other hother) (not_le.mpr hless)

/-! ## Searching for cycles along simple paths

A search that follows every path until a vertex repeats finds a cycle at each repetition. -/

variable {V : Type u}

/-! ## Closed walks -/

/-- The steps of a cycle: each vertex with the next one, the last with the first. -/
def cycleSteps : List V → List (V × V)
  | [] => []
  | first :: rest => (first :: rest).zip (rest ++ [first])

/-- The vertices follow each other along the relation, and the first follows the last. -/
def IsCycle (adjacent : V → V → Prop) : List V → Prop
  | [] => False
  | first :: rest => (first :: rest ++ [first]).IsChain adjacent

variable {adjacent : V → V → Prop} {walk : List V} {first last second : V} {cycle path : List V}
  {vertex : V}

/-- A walk leads from each of its vertices to its last. -/
theorem reaches_last_of_isChain (hchain : (first :: walk).IsChain adjacent)
    (hlast : (first :: walk).getLast? = some last) : ReflTransGen adjacent first last := by
  induction walk generalizing first with
  | nil =>
    cases hlast
    exact .refl
  | cons second rest ih =>
    obtain ⟨hstep, hrest⟩ := isChain_cons_cons.mp hchain
    exact (ih hrest (by simpa using hlast)).head hstep

/-- A pair of neighbours splits the walk it stands in. -/
theorem exists_split_of_mem_zip_tail (hpair : (first, second) ∈ walk.zip walk.tail) :
    ∃ before after, walk = before ++ first :: second :: after := by
  induction walk with
  | nil => cases hpair
  | cons head rest ih =>
    cases rest with
    | nil => cases hpair
    | cons next rest =>
      obtain hhead | hrest := mem_cons.mp hpair
      · cases hhead
        exact ⟨[], rest, rfl⟩
      · obtain ⟨before, after, hsplit⟩ := ih hrest
        exact ⟨head :: before, after, by rw [hsplit, cons_append]⟩

/-- From the end of a step of a cycle there is a way back to its start. -/
theorem step_of_isCycle (hcycle : IsCycle adjacent cycle)
    (hstep : (first, second) ∈ cycleSteps cycle) :
    adjacent first second ∧ ReflTransGen adjacent second first := by
  cases cycle with
  | nil => exact hcycle.elim
  | cons start rest =>
    have hzip : (first, second) ∈
        (start :: rest ++ [start]).zip (start :: rest ++ [start]).tail := by
      have hlength : (start :: rest).length = (rest ++ [start]).length := by simp
      have hzip : (start :: rest ++ [start]).zip (rest ++ [start] ++ []) =
          (start :: rest).zip (rest ++ [start]) ++ [start].zip [] := zip_append hlength
      rw [append_nil] at hzip
      rw [cons_append, tail_cons, ← cons_append, hzip]
      exact mem_append_left _ hstep
    obtain ⟨before, after, hsplit⟩ := exists_split_of_mem_zip_tail hzip
    have hchain : (start :: rest ++ [start]).IsChain adjacent := hcycle
    have hparts := hsplit ▸ hchain
    obtain ⟨hbefore, hafter, hjoin⟩ := isChain_append.mp hparts
    obtain ⟨hadjacent, hafter⟩ := isChain_cons_cons.mp hafter
    refine ⟨hadjacent, ?_⟩
    have hlast : (second :: after).getLast? = some start := by
      have hwhole : (start :: rest ++ [start]).getLast? = some start := getLast?_concat
      rw [hsplit] at hwhole
      simpa using hwhole
    have hto := reaches_last_of_isChain hafter hlast
    refine hto.trans ?_
    cases before with
    | nil =>
      rw [nil_append, cons_append] at hsplit
      rw [(List.cons.inj hsplit).1]
    | cons head before =>
      have hhead : start = head := by
        rw [cons_append, cons_append] at hsplit
        exact (List.cons.inj hsplit).1
      subst hhead
      have hfront : (start :: (before ++ [first])).IsChain adjacent := by
        have hbegins : (start :: (before ++ [first])) <+:
            (start :: before ++ first :: second :: after) := ⟨second :: after, by simp⟩
        exact hparts.infix hbegins.isInfix
      have hend : (start :: (before ++ [first])).getLast? = some first := by
        rw [← cons_append, getLast?_concat]
      exact reaches_last_of_isChain hfront hend

/-- Along a way from one vertex to another no vertex need stand twice. -/
theorem exists_simple_walk (hreaches : ReflTransGen adjacent first last) :
    ∃ walk : List V, (first :: walk).IsChain adjacent ∧ (first :: walk).Nodup ∧
      (first :: walk).getLast? = some last := by
  classical
  induction hreaches using ReflTransGen.head_induction_on with
  | refl => exact ⟨[], .singleton _, nodup_singleton _, rfl⟩
  | @head start next hstep _ ih =>
    obtain ⟨walk, hchain, hnodup, hlast⟩ := ih
    by_cases hmem : start ∈ next :: walk
    · obtain ⟨before, after, hsplit⟩ := append_of_mem hmem
      have hsuffix : (start :: after) <:+ (next :: walk) := ⟨before, hsplit.symm⟩
      refine ⟨after, hchain.infix hsuffix.isInfix, hnodup.sublist hsuffix.sublist, ?_⟩
      rw [hsplit, getLast?_append_of_ne_nil _ (cons_ne_nil _ _)] at hlast
      exact hlast
    · exact ⟨next :: walk, .cons_cons hstep hchain, nodup_cons.mpr ⟨hmem, hnodup⟩,
        by simpa using hlast⟩

/-! ## The search -/

/-- The vertices that edges leave, and the vertices each of them leads to. -/
structure CycleSearch (V : Type u) [DecidableEq V] where
  keys : List V
  children : V → List V
  mem_keys : ∀ vertex, children vertex ≠ [] → vertex ∈ keys

namespace CycleSearch

variable [DecidableEq V] (search : CycleSearch V)

def Adjacent (first second : V) : Prop := second ∈ search.children first

/-- How many vertices the path has left to go to. -/
def unvisited (path : List V) : ℕ := search.keys.countP fun vertex => vertex ∉ path

theorem unvisited_append (hnew : vertex ∉ path) (hleaves : search.children vertex ≠ []) :
    search.unvisited (path ++ [vertex]) < search.unvisited path :=
  countP_notMem_append_lt (search.mem_keys vertex hleaves) hnew

/-- The cycles that the search finds from a vertex on, behind a path. -/
def cyclesFrom (vertex : V) (path : List V) : List (List V) :=
  if vertex ∈ path then [path.drop (path.idxOf vertex)]
  else if search.children vertex = [] then []
  else (search.children vertex).flatMap fun next => cyclesFrom next (path ++ [vertex])
termination_by search.unvisited path
decreasing_by
  exact search.unvisited_append ‹_› ‹_›

/-- The cycles that are found from all vertices. -/
def cycles : List (List V) := search.keys.flatMap fun vertex => search.cyclesFrom vertex []

/-- What is found behind a path along the edges is a cycle. -/
theorem isCycle_of_mem_cyclesFrom (hpath : (path ++ [vertex]).IsChain search.Adjacent)
    (hcycle : cycle ∈ search.cyclesFrom vertex path) : IsCycle search.Adjacent cycle := by
  fun_induction cyclesFrom search vertex path with
  | case1 vertex path hmem =>
    rw [mem_singleton] at hcycle
    have hdrop := drop_eq_getElem_cons (idxOf_lt_length_of_mem hmem)
    rw [getElem_idxOf] at hdrop
    have hsuffix : path.drop (path.idxOf vertex) ++ [vertex] <:+ path ++ [vertex] :=
      ⟨path.take (path.idxOf vertex), by rw [← append_assoc, take_append_drop]⟩
    have hchain := hpath.infix hsuffix.isInfix
    rw [hdrop] at hchain hcycle
    rw [hcycle]
    exact hchain
  | case2 vertex path _ _ => cases hcycle
  | case3 vertex path _ _ ih =>
    obtain ⟨next, hnext, hfound⟩ := mem_flatMap.mp hcycle
    refine ih next ?_ hfound
    refine isChain_append.mpr ⟨hpath, .singleton _, ?_⟩
    intro last hlast head hhead
    rw [getLast?_append, getLast?_singleton, Option.some_or, Option.mem_some_iff] at hlast
    rw [head?_singleton, Option.mem_some_iff] at hhead
    subst hlast hhead
    exact hnext

/-- A path without repetition that leads back to its first vertex is found. -/
theorem mem_cyclesFrom {start vertex : V} {before path after : List V}
    (hbefore : path ++ vertex :: after = start :: before)
    (hchain : (vertex :: after ++ [start]).IsChain search.Adjacent)
    (hnodup : (path ++ vertex :: after).Nodup) :
    path ++ vertex :: after ∈ search.cyclesFrom vertex path := by
  induction after generalizing vertex path with
  | nil =>
    have hnew : vertex ∉ path := by
      intro hmem
      exact (nodup_append.mp hnodup).2.2 vertex hmem vertex mem_cons_self rfl
    have hstep : search.Adjacent vertex start := (isChain_cons_cons.mp hchain).1
    have hleaves := ne_nil_of_mem hstep
    rw [cyclesFrom, if_neg hnew, if_neg hleaves]
    refine mem_flatMap.mpr ⟨start, hstep, ?_⟩
    have hstart : start ∈ path ++ [vertex] := by simp [hbefore]
    rw [cyclesFrom, if_pos hstart, mem_singleton, hbefore]
    simp
  | cons next after ih =>
    have hnew : vertex ∉ path := by
      intro hmem
      exact (nodup_append.mp hnodup).2.2 vertex hmem vertex mem_cons_self rfl
    obtain ⟨hstep, hrest⟩ := isChain_cons_cons.mp hchain
    have hleaves := ne_nil_of_mem hstep
    have hassoc : path ++ vertex :: next :: after = path ++ [vertex] ++ next :: after := by simp
    rw [cyclesFrom, if_neg hnew, if_neg hleaves, hassoc]
    rw [hassoc] at hbefore hnodup
    exact mem_flatMap.mpr ⟨next, hstep, ih hbefore hrest hnodup⟩

/-- The steps of the cycles found are the edges from whose end there is a way back. -/
theorem mem_cycleSteps_iff :
    (∃ cycle ∈ search.cycles, (first, second) ∈ cycleSteps cycle) ↔
      search.Adjacent first second ∧ ReflTransGen search.Adjacent second first := by
  constructor
  · rintro ⟨cycle, hcycle, hstep⟩
    obtain ⟨vertex, -, hfound⟩ := mem_flatMap.mp hcycle
    exact step_of_isCycle (search.isCycle_of_mem_cyclesFrom (.singleton _) hfound) hstep
  · rintro ⟨hadjacent, hback⟩
    obtain ⟨walk, hchain, hnodup, hlast⟩ := exists_simple_walk hback
    have hleaves : search.children second ≠ [] := by
      cases walk with
      | nil =>
        cases hlast
        exact ne_nil_of_mem hadjacent
      | cons next walk => exact ne_nil_of_mem (isChain_cons_cons.mp hchain).1
    have hkey := search.mem_keys second hleaves
    refine ⟨second :: walk, mem_flatMap.mpr ⟨second, hkey, ?_⟩, ?_⟩
    · refine @mem_cyclesFrom _ _ search second second walk [] walk rfl ?_ hnodup
      refine isChain_append.mpr ⟨hchain, .singleton _, ?_⟩
      intro last hmem head hhead
      rw [head?_singleton, Option.mem_some_iff] at hhead
      cases hlast.symm.trans hmem
      subst hhead
      exact hadjacent
    · obtain ⟨front, hfront⟩ := getLast?_eq_some_iff.mp hlast
      have hlength : front.length = walk.length := by
        have hlengths := congrArg List.length hfront
        simp only [length_cons, length_append, length_nil] at hlengths
        omega
      rw [cycleSteps, hfront, zip_append hlength]
      exact mem_append_cons_self

end CycleSearch

/-! ## Edges from one vertex to several others -/

section AddTargets

variable {adjacent : V → V → Prop} {source : V} {targets : V → Prop}

/-- A relation with edges from one vertex to some others. -/
def AddTargets (adjacent : V → V → Prop) (source : V) (targets : V → Prop) : V → V → Prop :=
  fun first second => adjacent first second ∨ first = source ∧ targets second

theorem reflTransGen_addTargets
    (hreaches : ReflTransGen (AddTargets adjacent source targets) first second) :
    ReflTransGen adjacent first second ∨
      ∃ target, targets target ∧ ReflTransGen adjacent target second := by
  induction hreaches with
  | refl => exact .inl .refl
  | tail _ hstep ih =>
    obtain hold | ⟨rfl, htarget⟩ := hstep
    · refine ih.imp (·.tail hold) ?_
      rintro ⟨target, htarget, hway⟩
      exact ⟨target, htarget, hway.tail hold⟩
    · exact .inr ⟨_, htarget, .refl⟩

/-- A way over the larger relation uses no new edge, or it leads to where they start and from
the end of one of them on it uses none. -/
theorem transGen_addTargets (hreaches : TransGen (AddTargets adjacent source targets) first second)
    :
    TransGen adjacent first second ∨
      ReflTransGen (AddTargets adjacent source targets) first source ∧
        ∃ target, targets target ∧ ReflTransGen adjacent target second := by
  induction hreaches with
  | single hstep =>
    obtain hold | ⟨rfl, htarget⟩ := hstep
    · exact .inl (.single hold)
    · exact .inr ⟨.refl, _, htarget, .refl⟩
  | tail hprior hstep ih =>
    obtain hold | ⟨rfl, htarget⟩ := hstep
    · refine ih.imp (·.tail hold) ?_
      rintro ⟨hsource, target, htarget, hway⟩
      exact ⟨hsource, target, htarget, hway.tail hold⟩
    · exact .inr ⟨hprior.to_reflTransGen, _, htarget, .refl⟩

/-- The new edges close no cycle exactly if none of their ends leads back to their start. -/
theorem acyclic_addTargets_iff
    (hacyclic : ∀ vertex, ¬ TransGen adjacent vertex vertex) :
    (∀ vertex, ¬ TransGen (AddTargets adjacent source targets) vertex vertex) ↔
      ∀ target, targets target → ¬ ReflTransGen adjacent target source := by
  constructor
  · intro hnone target htarget hway
    have hway : ReflTransGen (AddTargets adjacent source targets) target source :=
      ReflTransGen.mono (fun _ _ => .inl) _ _ hway
    exact hnone source (.head' (.inr ⟨rfl, htarget⟩) hway)
  · intro hnever vertex hcycle
    obtain hold | ⟨hsource, target, htarget, hway⟩ := transGen_addTargets hcycle
    · exact hacyclic vertex hold
    · obtain hold | ⟨other, hother, hback⟩ := reflTransGen_addTargets hsource
      · exact hnever target htarget (hway.trans hold)
      · exact hnever other hother hback

end AddTargets

/-! ## Edges off the cycles -/

section OffCycle

variable {adjacent : V → V → Prop}

/-- An edge that lies on no cycle. -/
def OffCycle (adjacent : V → V → Prop) (first second : V) : Prop :=
  adjacent first second ∧ ¬ Relation.ReflTransGen adjacent second first

theorem acyclic_offCycle (vertex : V) : ¬ TransGen (OffCycle adjacent) vertex vertex := by
  intro hcycle
  obtain ⟨next, hstep, hrest⟩ := TransGen.head'_iff.mp hcycle
  exact hstep.2 (ReflTransGen.mono (fun _ _ => And.left) _ _ hrest)

/-- A way there and back leads only along edges on cycles. -/
theorem reflTransGen_of_cyclic {other : V → V → Prop}
    (hedges : ∀ first second, adjacent first second →
      ReflTransGen adjacent second first → other first second)
    (hto : ReflTransGen adjacent first last) (hback : ReflTransGen adjacent last first) :
    ReflTransGen other first last := by
  induction hto using ReflTransGen.head_induction_on with
  | refl => exact .refl
  | @head start next hstep hrest ih =>
    exact .head (hedges start next hstep (hrest.trans hback)) (ih (hback.tail hstep))

/-- Where no cycle lies above, every way leads along edges off the cycles. -/
theorem reflTransGen_offCycle
    (hacyclic : ∀ other ∈ above adjacent last, ¬ TransGen adjacent other other)
    (hreaches : ReflTransGen adjacent first last) :
    ReflTransGen (OffCycle adjacent) first last := by
  induction hreaches using ReflTransGen.head_induction_on with
  | refl => exact .refl
  | @head start next hstep hrest ih =>
    refine .head ⟨hstep, fun hback => ?_⟩ ih
    exact hacyclic start (hrest.head hstep) (.head' hstep hback)

/-- Where no cycle lies above, some vertex above has no edge that leads to it. -/
theorem exists_isSource_above (hfinite : {vertex | ∃ other, adjacent vertex other}.Finite)
    (hacyclic : ∀ other ∈ above adjacent vertex, ¬ TransGen adjacent other other) :
    ∃ source ∈ above adjacent vertex, IsSource adjacent source := by
  obtain ⟨least, hleast, hback⟩ := exists_minimal_above hfinite vertex
  refine ⟨least, hleast, fun other hother => hacyclic least hleast ?_⟩
  exact .tail' (hback other (.single hother)) hother

end OffCycle

end Nobie.Foundation
