/-
# Searches along paths

Depth-first searches over the edges that leave the vertices of a list, each with the path
that led there. One visits every vertex once and collects the edges that lead back into the
path; where it finds none there is no cycle. The other follows every path that repeats no
vertex and collects the edges that make it too long; where there is no cycle either, every
walk is short. Edges that lead out of the vertices are skipped.
-/

import Nobie.Foundation.FiniteDigraph
import Nobie.Foundation.OrderedMap

namespace Nobie.Foundation

open List Relation

universe u v

/-- Vertices and the edges that leave each, in the order of the search. -/
structure PathSearch (V : Type u) (E : Type v) [DecidableEq V] where
  vertices : List V
  outgoing : V → List E
  target : E → V

namespace PathSearch

variable {V : Type u} {E : Type v} [DecidableEq V] (search : PathSearch V E)

/-- An edge leads from the first vertex to the second, which is one of the vertices. -/
def Adjacent (first second : V) : Prop :=
  second ∈ search.vertices ∧ ∃ edge ∈ search.outgoing first, search.target edge = second

/-- How many vertices the path has left to go to. -/
def unvisited (path : List V) : ℕ := search.vertices.countP fun vertex => vertex ∉ path

variable {path : List V} {vertex : V}

theorem unvisited_append (hvertex : vertex ∈ search.vertices) (hnew : vertex ∉ path) :
    search.unvisited (path ++ [vertex]) < search.unvisited path :=
  countP_notMem_append_lt hvertex hnew

/-! ## Edges back into the path -/

/-- The vertices done with, and the edges found, each behind its path. -/
structure Found (V : Type u) (E : Type v) where
  visited : List V
  back : List (List V × E)

/-- The search through the edges at the end of a path. -/
def searchEdges (path : List V) : List E → Found V E → Found V E
  | [], found => found
  | edge :: rest, found =>
    if search.target edge ∉ search.vertices then searchEdges path rest found
    else if search.target edge ∈ path then
      searchEdges path rest { found with back := found.back ++ [(path, edge)] }
    else if search.target edge ∈ found.visited then searchEdges path rest found
    else
      let below := searchEdges (path ++ [search.target edge])
        (search.outgoing (search.target edge)) found
      searchEdges path rest { below with visited := below.visited ++ [search.target edge] }
termination_by edges => (search.unvisited path, edges.length)
decreasing_by
  · exact Prod.Lex.right _ (Nat.lt_succ_self _)
  · exact Prod.Lex.right _ (Nat.lt_succ_self _)
  · exact Prod.Lex.right _ (Nat.lt_succ_self _)
  · exact Prod.Lex.left _ _ (search.unvisited_append (not_not.mp ‹_›) ‹_›)
  · exact Prod.Lex.right _ (Nat.lt_succ_self _)

/-- The search from a vertex, unless it is done with. -/
def searchVertex (found : Found V E) (vertex : V) : Found V E :=
  if vertex ∈ found.visited then found
  else
    let below := search.searchEdges [vertex] (search.outgoing vertex) found
    { below with visited := below.visited ++ [vertex] }

/-- The edges that lead back into their paths. -/
def backEdges : List (List V × E) := (search.vertices.foldl search.searchVertex ⟨[], []⟩).back

/-- The vertices done with are closed under edges, and none of them is on a cycle. -/
structure Settled (visited : List V) : Prop where
  closed : ∀ first ∈ visited, ∀ second, search.Adjacent first second → second ∈ visited
  acyclic : ∀ vertex ∈ visited, ¬ Relation.TransGen search.Adjacent vertex vertex

variable {search}

variable {visited : List V} {edges : List E} {tooLong : ℕ → Bool}

theorem Settled.reaches (h : search.Settled visited) {first second : V} (hfirst : first ∈ visited)
    (hreaches : TransGen search.Adjacent first second) : second ∈ visited := by
  induction hreaches with
  | single hadjacent => exact h.closed first hfirst _ hadjacent
  | tail _ hadjacent ih => exact h.closed _ ih _ hadjacent

/-- A vertex whose edges lead to vertices done with is done with. -/
theorem Settled.append (h : search.Settled visited)
    (hvertex : ∀ second, search.Adjacent vertex second → second ∈ visited) :
    search.Settled (visited ++ [vertex]) := by
  have hbelow {second : V} (hreaches : TransGen search.Adjacent vertex second) :
      second ∈ visited := by
    obtain ⟨next, hnext, hrest⟩ := TransGen.head'_iff.mp hreaches
    obtain rfl | hrest := reflTransGen_iff_eq_or_transGen.mp hrest
    · exact hvertex _ hnext
    · exact h.reaches (hvertex next hnext) hrest
  constructor
  · intro first hfirst second hadjacent
    obtain hold | hnew := mem_append.mp hfirst
    · exact mem_append_left _ (h.closed first hold second hadjacent)
    · obtain rfl := mem_singleton.mp hnew
      exact mem_append_left _ (hvertex second hadjacent)
  · intro first hfirst hcycle
    obtain hold | hnew := mem_append.mp hfirst
    · exact h.acyclic first hold hcycle
    · obtain rfl := mem_singleton.mp hnew
      exact h.acyclic first (hbelow hcycle) hcycle

variable (search) in
/-- What a search that finds no edge back leaves: it had found none before, it forgets no
vertex, and it is done with the targets of its edges. -/
structure Done (edges : List E) (before after : Found V E) : Prop where
  none_before : before.back = []
  settled : search.Settled before.visited → search.Settled after.visited
  kept : ∀ vertex ∈ before.visited, vertex ∈ after.visited
  targets : ∀ edge ∈ edges, search.target edge ∈ search.vertices →
    search.target edge ∈ after.visited

variable {found : Found V E}

theorem done_searchEdges (hnone : (search.searchEdges path edges found).back = []) :
    Done search edges found (search.searchEdges path edges found) := by
  fun_induction searchEdges search path edges found with
  | case1 path found => exact ⟨hnone, id, fun _ => id, nofun⟩
  | case2 path found edge rest houtside ih =>
    obtain ⟨hbefore, hsettled, hkept, htargets⟩ := ih hnone
    refine ⟨hbefore, hsettled, hkept, forall_mem_cons.mpr ⟨fun hinside => ?_, htargets⟩⟩
    exact absurd hinside houtside
  | case3 path found edge rest _ _ ih =>
    have hbefore := (ih hnone).none_before
    simp at hbefore
  | case4 path found edge rest _ _ hvisited ih =>
    obtain ⟨hbefore, hsettled, hkept, htargets⟩ := ih hnone
    exact ⟨hbefore, hsettled, hkept, forall_mem_cons.mpr ⟨fun _ => hkept _ hvisited, htargets⟩⟩
  | case5 path found edge rest _ _ _ below ihBelow ihRest =>
    obtain ⟨hbelow, hsettled, hkept, htargets⟩ := ihRest hnone
    obtain ⟨hbefore, hsettledBelow, hkeptBelow, htargetsBelow⟩ := ihBelow hbelow
    have hself := hkept _ (mem_append_right below.visited (mem_singleton_self _))
    refine ⟨hbefore, fun h => hsettled ((hsettledBelow h).append ?_), fun vertex hvertex => ?_,
      forall_mem_cons.mpr ⟨fun _ => hself, htargets⟩⟩
    · rintro second ⟨hsecond, next, hnext, rfl⟩
      exact htargetsBelow next hnext hsecond
    · exact hkept vertex (mem_append_left _ (hkeptBelow vertex hvertex))

/-- The same for the search from a vertex. -/
theorem done_searchVertex (hnone : (search.searchVertex found vertex).back = []) :
    found.back = [] ∧
      (search.Settled found.visited → search.Settled (search.searchVertex found vertex).visited) ∧
        (∀ other ∈ found.visited, other ∈ (search.searchVertex found vertex).visited) ∧
          vertex ∈ (search.searchVertex found vertex).visited := by
  unfold searchVertex at hnone ⊢
  split_ifs at hnone ⊢ with hvisited
  · exact ⟨hnone, id, fun _ => id, hvisited⟩
  · obtain ⟨hback, hsettled, hkept, htargets⟩ := done_searchEdges hnone
    refine ⟨hback, fun h => (hsettled h).append ?_, fun other hother => ?_, ?_⟩
    · rintro second ⟨hsecond, edge, hedge, rfl⟩
      exact htargets edge hedge hsecond
    · exact mem_append_left _ (hkept other hother)
    · exact mem_append_cons_self

/-- The same for the search from each of a list of vertices. -/
theorem done_foldl_searchVertex {vertices : List V}
    (hnone : (vertices.foldl search.searchVertex found).back = []) :
    found.back = [] ∧ (search.Settled found.visited →
        search.Settled (vertices.foldl search.searchVertex found).visited) ∧
      (∀ other ∈ found.visited, other ∈ (vertices.foldl search.searchVertex found).visited) ∧
        ∀ vertex ∈ vertices, vertex ∈ (vertices.foldl search.searchVertex found).visited := by
  induction vertices generalizing found with
  | nil => exact ⟨hnone, id, fun _ => id, nofun⟩
  | cons first rest ih =>
    obtain ⟨hfirst, hsettled, hkept, hrest⟩ := ih hnone
    obtain ⟨hback, hstep, hmem, hself⟩ := done_searchVertex hfirst
    exact ⟨hback, fun h => hsettled (hstep h), fun other hother => hkept other (hmem other hother),
      forall_mem_cons.mpr ⟨hkept first hself, hrest⟩⟩

/-- Where no edge leads back into its path there is no cycle. -/
theorem acyclic_of_backEdges (hnone : search.backEdges = []) :
    ¬ TransGen search.Adjacent vertex vertex := by
  intro hcycle
  obtain ⟨-, hsettled, -, hvisited⟩ := done_foldl_searchVertex hnone
  obtain ⟨previous, -, hlast⟩ := TransGen.tail'_iff.mp hcycle
  have hempty : search.Settled [] := ⟨nofun, nofun⟩
  exact (hsettled hempty).acyclic vertex (hvisited vertex hlast.1) hcycle

/-! ## Edges at the end of long paths -/

variable (search)

/-- The edges that make a path too long, each with the path it makes, along every path that
repeats no vertex. -/
def overlongFrom (tooLong : ℕ → Bool) (path : List V) : List E → List (List V × E)
  | [] => []
  | edge :: rest =>
    if search.target edge ∉ search.vertices ∨ search.target edge ∈ path then
      overlongFrom tooLong path rest
    else
      let next := path ++ [search.target edge]
      (if tooLong path.length then [(next, edge)] else []) ++
        overlongFrom tooLong next (search.outgoing (search.target edge)) ++
          overlongFrom tooLong path rest
termination_by edges => (search.unvisited path, edges.length)
decreasing_by
  · exact Prod.Lex.right _ (Nat.lt_succ_self _)
  · obtain ⟨hinside, hnew⟩ := not_or.mp ‹_›
    exact Prod.Lex.left _ _ (search.unvisited_append (not_not.mp hinside) hnew)
  · exact Prod.Lex.right _ (Nat.lt_succ_self _)

/-- The same from every vertex. -/
def overlong (tooLong : ℕ → Bool) : List (List V × E) :=
  search.vertices.flatMap fun vertex =>
    search.overlongFrom tooLong [vertex] (search.outgoing vertex)

variable {search}

theorem overlongFrom_of_mem {edge : E} (hedge : edge ∈ edges)
    (hinside : search.target edge ∈ search.vertices) (hnew : search.target edge ∉ path)
    (hnone : search.overlongFrom tooLong path edges = []) :
    tooLong path.length = false ∧ search.overlongFrom tooLong (path ++ [search.target edge])
      (search.outgoing (search.target edge)) = [] := by
  induction edges with
  | nil => cases hedge
  | cons first rest ih =>
    rw [overlongFrom] at hnone
    split_ifs at hnone with hskip hlong
    · obtain rfl | hrest := mem_cons.mp hedge
      · exact absurd hskip (not_or.mpr ⟨not_not_intro hinside, hnew⟩)
      · exact ih hrest hnone
    · simp at hnone
    · obtain ⟨hbelow, hafter⟩ := append_eq_nil_iff.mp hnone
      obtain rfl | hrest := mem_cons.mp hedge
      · exact ⟨Bool.not_eq_true _ ▸ hlong, hbelow⟩
      · exact ih hrest hafter

/-- A walk that repeats no vertex is not too long behind a path. -/
theorem not_tooLong_of_overlongFrom {walk : List V} {last : V}
    (hchain : (last :: walk).IsChain search.Adjacent) (hnodup : (path ++ last :: walk).Nodup)
    (hwalk : walk ≠ [])
    (hnone : search.overlongFrom tooLong (path ++ [last]) (search.outgoing last) = []) :
    tooLong (path.length + walk.length) = false := by
  induction walk generalizing path last with
  | nil => exact absurd rfl hwalk
  | cons next rest ih =>
    obtain ⟨⟨hinside, edge, hedge, rfl⟩, hrest⟩ := isChain_cons_cons.mp hchain
    rw [← singleton_append, ← append_assoc] at hnodup
    have hnew : search.target edge ∉ path ++ [last] := fun hmem =>
      (nodup_append.mp hnodup).2.2 _ hmem _ mem_cons_self rfl
    obtain ⟨hlength, hbelow⟩ := overlongFrom_of_mem hedge hinside hnew hnone
    cases rest with
    | nil => simpa using hlength
    | cons following rest =>
      have hlong := ih hrest hnodup (cons_ne_nil _ _) hbelow
      rw [length_append, length_singleton] at hlong
      rw [length_cons, ← Nat.add_assoc, Nat.add_right_comm]
      exact hlong

end PathSearch

variable {V : Type u} {walk : List V}

/-- A walk along an acyclic relation repeats no vertex. -/
theorem nodup_of_isChain {adjacent : V → V → Prop}
    (hacyclic : ∀ vertex, ¬ TransGen adjacent vertex vertex) (hchain : walk.IsChain adjacent) :
    walk.Nodup := by
  have hreaches : walk.IsChain (TransGen adjacent) := hchain.imp fun _ _ => TransGen.single
  refine (isChain_iff_pairwise.mp hreaches).imp ?_
  intro first second hpath hsame
  rw [hsame] at hpath
  exact hacyclic second hpath

/-- Where no path is too long and no edge leads back, no walk of an edge or more is. -/
theorem PathSearch.not_tooLong {E : Type v} [DecidableEq V] {search : PathSearch V E}
    {tooLong : ℕ → Bool} (hback : search.backEdges = []) (hnone : search.overlong tooLong = [])
    {first : V} (hfirst : first ∈ search.vertices)
    (hchain : (first :: walk).IsChain search.Adjacent) (hwalk : walk ≠ []) :
    tooLong walk.length = false := by
  have hfrom := flatMap_eq_nil_iff.mp hnone first hfirst
  have hnodup : ([] ++ first :: walk).Nodup :=
    nodup_of_isChain (fun vertex => acyclic_of_backEdges hback) hchain
  have hlength := not_tooLong_of_overlongFrom hchain hnodup hwalk hfrom
  rwa [length_nil, Nat.zero_add] at hlength

/-! ## Breadth-first search

The search takes vertices from a queue with the length of the walk that put them there. -/

namespace FiniteDigraph

variable {V : Type u} {E : Type v} [DecidableEq V] (graph : FiniteDigraph V E)

/-- The ends of the edges that leave a vertex, at a depth. -/
def ends (vertex : V) (depth : ℕ) : List (V × ℕ) :=
  (graph.outgoing vertex).map fun edge => (graph.target edge, depth)

/-- The vertices found behind those that were, and the greatest depth. -/
def breadthFirst (visited : List V) (deepest : ℕ) : List (V × ℕ) → List V × ℕ
  | [] => (visited, deepest)
  | (vertex, depth) :: queue =>
    if vertex ∈ visited then breadthFirst visited deepest queue
    else
      breadthFirst (visited ++ [vertex]) (if deepest < depth then depth else deepest)
        (queue ++ graph.ends vertex (depth + 1))
termination_by queue => queue.length + graph.pending visited
decreasing_by
  · simp
  · have := graph.pending_visit ‹_›
    simp only [List.length_append, List.length_cons, ends, List.length_map]
    omega

variable {graph}

variable {vertex : V} {visited : List V} {deepest : ℕ} {queue : List (V × ℕ)}

theorem mem_ends {found : V} {depth level : ℕ} :
    (found, level) ∈ graph.ends vertex depth ↔ level = depth ∧ graph.Adjacent vertex found := by
  constructor
  · intro hmem
    obtain ⟨edge, hedge, hpair⟩ := mem_map.mp hmem
    cases hpair
    obtain ⟨hedges, hsource⟩ := graph.mem_outgoing.mp hedge
    exact ⟨rfl, edge, hedges, hsource, rfl⟩
  · rintro ⟨rfl, edge, hedges, hsource, rfl⟩
    exact mem_map.mpr ⟨edge, graph.mem_outgoing.mpr ⟨hedges, hsource⟩, rfl⟩

theorem nodup_breadthFirst (hnodup : visited.Nodup) :
    (graph.breadthFirst visited deepest queue).1.Nodup := by
  fun_induction breadthFirst graph visited deepest queue with
  | case1 => exact hnodup
  | case2 visited deepest vertex depth queue hvisited ih => exact ih hnodup
  | case3 visited deepest vertex depth queue hnew ih =>
    refine ih (nodup_append.mpr ⟨hnodup, nodup_singleton _, ?_⟩)
    rintro first hfirst second hsecond rfl
    exact hnew (mem_singleton.mp hsecond ▸ hfirst)

theorem mem_breadthFirst_of_visited (h : vertex ∈ visited) :
    vertex ∈ (graph.breadthFirst visited deepest queue).1 := by
  fun_induction breadthFirst graph visited deepest queue with
  | case1 => exact h
  | case2 visited deepest first depth queue hvisited ih => exact ih h
  | case3 visited deepest first depth queue hnew ih => exact ih (mem_append_left _ h)

/-- What the search finds contains the queue, and is closed if what was found before leads
to itself and to the queue. -/
theorem breadthFirst_closed {visited : List V} {deepest : ℕ} {queue : List (V × ℕ)}
    (h : ∀ first ∈ visited, ∀ second, graph.Adjacent first second →
      second ∈ visited ∨ ∃ depth, (second, depth) ∈ queue) :
    (∀ entry ∈ queue, entry.1 ∈ (graph.breadthFirst visited deepest queue).1) ∧
      ∀ first ∈ (graph.breadthFirst visited deepest queue).1, ∀ second,
        graph.Adjacent first second → second ∈ (graph.breadthFirst visited deepest queue).1 := by
  fun_induction breadthFirst graph visited deepest queue with
  | case1 visited deepest =>
    refine ⟨nofun, fun first hfirst second hstep => ?_⟩
    obtain hsecond | ⟨depth, hqueue⟩ := h first hfirst second hstep
    · exact hsecond
    · cases hqueue
  | case2 visited deepest vertex depth queue hvisited ih =>
    have hrest := ih fun first hfirst second hstep => by
      obtain hsecond | ⟨level, hqueue⟩ := h first hfirst second hstep
      · exact .inl hsecond
      · obtain hhead | htail := mem_cons.mp hqueue
        · exact .inl ((Prod.mk.inj hhead).1 ▸ hvisited)
        · exact .inr ⟨level, htail⟩
    exact ⟨forall_mem_cons.mpr ⟨mem_breadthFirst_of_visited hvisited, hrest.1⟩, hrest.2⟩
  | case3 visited deepest vertex depth queue hnew ih =>
    have hself := mem_append_right visited (mem_singleton_self vertex)
    have hrest := ih fun first hfirst second hstep => by
      obtain hold | hlast := mem_append.mp hfirst
      · obtain hsecond | ⟨level, hqueue⟩ := h first hold second hstep
        · exact .inl (mem_append_left _ hsecond)
        · obtain hhead | htail := mem_cons.mp hqueue
          · exact .inl ((Prod.mk.inj hhead).1 ▸ hself)
          · exact .inr ⟨level, mem_append_left _ htail⟩
      · obtain rfl := mem_singleton.mp hlast
        exact .inr ⟨depth + 1, mem_append_right _ (mem_ends.mpr ⟨rfl, hstep⟩)⟩
    refine ⟨forall_mem_cons.mpr ⟨mem_breadthFirst_of_visited hself, ?_⟩, hrest.2⟩
    exact fun entry hentry => hrest.1 entry (mem_append_left _ hentry)

theorem reached_of_mem_breadthFirst {start : V}
    (hvisited : ∀ vertex ∈ visited, Relation.TransGen graph.Adjacent start vertex)
    (hqueue : ∀ entry ∈ queue, Relation.TransGen graph.Adjacent start entry.1)
    (h : vertex ∈ (graph.breadthFirst visited deepest queue).1) :
    Relation.TransGen graph.Adjacent start vertex := by
  fun_induction breadthFirst graph visited deepest queue with
  | case1 => exact hvisited vertex h
  | case2 visited deepest first depth queue hknown ih =>
    exact ih hvisited (forall_mem_cons.mp hqueue).2 h
  | case3 visited deepest first depth queue hnew ih =>
    obtain ⟨hfirst, hrest⟩ := forall_mem_cons.mp hqueue
    refine ih ?_ ?_ h
    · exact forall_mem_append.mpr ⟨hvisited, forall_mem_singleton.mpr hfirst⟩
    · refine forall_mem_append.mpr ⟨hrest, fun entry hentry => ?_⟩
      exact hfirst.tail (mem_ends.mp hentry).2

/-- From the ends of the edges of a vertex on, the search finds what the vertex leads to. -/
theorem mem_breadthFirst_iff {start : V} {depth : ℕ} :
    vertex ∈ (graph.breadthFirst [] deepest (graph.ends start depth)).1 ↔
      Relation.TransGen graph.Adjacent start vertex := by
  constructor
  · refine reached_of_mem_breadthFirst nofun fun entry hentry => ?_
    exact .single (mem_ends.mp hentry).2
  · intro hreaches
    obtain ⟨hstart, hclosed⟩ := @breadthFirst_closed V E _ graph [] deepest (graph.ends start depth)
      nofun
    induction hreaches with
    | single hstep => exact hstart (_, depth) (mem_ends.mpr ⟨rfl, hstep⟩)
    | tail _ hstep ih => exact hclosed _ ih _ hstep

/-- The search depends on the ends of the edges alone. -/
theorem breadthFirst_congr {other : FiniteDigraph V E}
    (hends : ∀ vertex depth, graph.ends vertex depth = other.ends vertex depth)
    (visited : List V) (deepest : ℕ) (queue : List (V × ℕ)) :
    graph.breadthFirst visited deepest queue = other.breadthFirst visited deepest queue := by
  fun_induction breadthFirst graph visited deepest queue with
  | case1 => rw [breadthFirst]
  | case2 visited deepest vertex depth queue hvisited ih =>
    rw [breadthFirst.eq_2 other, if_pos hvisited]
    exact ih
  | case3 visited deepest vertex depth queue hnew ih =>
    rw [breadthFirst.eq_2 other, if_neg hnew, ← hends]
    exact ih

end FiniteDigraph

/-! ## The graph of a map -/

section OfMap

variable {V : Type u} [DecidableEq V]

/-- The vertices a map has under a vertex. -/
def childrenOf (map : OrderedMap V (List V)) (vertex : V) : List V := (map.get? vertex).getD []

theorem filter_flatMap_entries {entries : List (V × List V)}
    (hnodup : (entries.map Prod.fst).Nodup) (vertex : V) :
    (entries.flatMap fun entry => entry.2.map fun child => (entry.1, child)).filter
        (fun edge => edge.1 = vertex) =
      ((OrderedMap.lookup entries vertex).getD []).map fun child => (vertex, child) := by
  induction entries with
  | nil => rfl
  | cons entry rest ih =>
    obtain ⟨key, children⟩ := entry
    obtain ⟨hkey, hrest⟩ := nodup_cons.mp hnodup
    rw [flatMap_cons, filter_append, ih hrest, OrderedMap.lookup]
    by_cases hsame : key = vertex
    · subst hsame
      have hnone : OrderedMap.lookup rest key = none := OrderedMap.lookup_eq_none_of_not_mem hkey
      simp [hnone, filter_map, Function.comp_def]
    · simp [hsame, filter_map, Function.comp_def]

/-- The edges lead from the keys of a map to the vertices under them. -/
def FiniteDigraph.ofMap (map : OrderedMap V (List V)) : FiniteDigraph V (V × V) where
  edges := map.entries.flatMap fun entry => entry.2.map fun child => (entry.1, child)
  source := Prod.fst
  target := Prod.snd
  outgoing vertex := (childrenOf map vertex).map fun child => (vertex, child)
  outgoing_perm vertex := by
    rw [filter_flatMap_entries map.nodup vertex]
    rfl

theorem FiniteDigraph.ofMap_adjacent {map : OrderedMap V (List V)} {first second : V} :
    (FiniteDigraph.ofMap map).Adjacent first second ↔ second ∈ childrenOf map first := by
  constructor
  · rintro ⟨edge, hedges, hsource, rfl⟩
    have hedge := (FiniteDigraph.ofMap map).mem_outgoing.mpr ⟨hedges, hsource⟩
    obtain ⟨child, hchild, rfl⟩ := mem_map.mp hedge
    exact hchild
  · intro hsecond
    have hedge : (first, second) ∈ (FiniteDigraph.ofMap map).outgoing first :=
      mem_map_of_mem hsecond
    obtain ⟨hedges, hsource⟩ := (FiniteDigraph.ofMap map).mem_outgoing.mp hedge
    exact ⟨_, hedges, hsource, rfl⟩

end OfMap

end Nobie.Foundation
