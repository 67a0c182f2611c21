import Mathlib.Data.List.Chain
import Mathlib.Data.List.Nodup
import Mathlib.Data.List.Perm.Subperm
import Mathlib.Logic.Relation
import SpotGateway.Proofs.Outcome
import SpotGateway.RateLimit.Cycle

/-!
# The search finds a cycle exactly if there is one

Nodes are under way exactly while they are on the path, and from a node that is done with one comes
only to nodes that are done with.  So a node that is left behind is on no cycle, and one that points
back to the path closes one.

* `SimpleCycle` — the nodes of a cycle, from one of them to itself again, the others once;
* `Search.Sound` — what the search knows, with `Search.Sound.enter` and `Search.Sound.leave`;
* `Ends`, `ends_explore`, `ends_search` — how a search ends: through, or where it came upon a way
  back, but never for want of depth;
* `search_cases` — there is no cycle, or a way back was found;
* `search_of_deeper` — depth beyond the number of nodes changes nothing.
-/

set_option autoImplicit false

namespace SpotGateway.Cycle

open Relation

/-! ## Cycles -/

/-- From a node along others back to the same node; no node but this one occurs twice. -/
structure SimpleCycle {α : Type} (leads : α → α → Prop) (nodes : List α) : Prop where
  two_le : 2 ≤ nodes.length
  closed : nodes.head? = nodes.getLast?
  chain : nodes.IsChain leads
  distinct : nodes.dropLast.Nodup

section

variable {α β : Type} {r : α → α → Prop} {r' : β → β → Prop} {nodes : List α}

/-- The first node of a cycle can be reached from itself. -/
theorem SimpleCycle.exists_transGen (h : SimpleCycle r nodes) : ∃ a, TransGen r a a := by
  obtain ⟨hlength, hclosed, hchain, -⟩ := h
  match nodes with
  | [] => simp at hlength
  | [a] => simp at hlength
  | a :: b :: rest =>
    have hall := (hchain.imp fun _ _ => TransGen.single).pairwise
    refine ⟨a, List.rel_of_pairwise_cons hall (List.mem_of_getLast? ?_)⟩
    rw [← hclosed.trans List.getLast?_cons_cons, List.head?_cons]

theorem SimpleCycle.map (h : SimpleCycle r nodes) {f : α → β}
    (hleads : ∀ a b, r a b → r' (f a) (f b))
    (hinj : ∀ a ∈ nodes, ∀ b ∈ nodes, f a = f b → a = b) : SimpleCycle r' (nodes.map f) := by
  refine ⟨by simpa using h.two_le, by simp [h.closed], ?_, ?_⟩
  · rw [List.isChain_map]
    exact h.chain.imp hleads
  · rw [← List.map_dropLast]
    exact List.Nodup.map_on (fun a ha b hb =>
      hinj a (List.dropLast_subset nodes ha) b (List.dropLast_subset nodes hb)) h.distinct

end

/-! ## Ways back -/

variable {next : Nat → List Nat} {size depth node n : Nat} {path : List Nat} {s s' : Search}

/-- One node points to another. -/
def Leads (next : Nat → List Nat) (a b : Nat) : Prop := b ∈ next a

/-- A path whose end points back to a node on it. -/
structure WayBack (next : Nat → List Nat) (path : List Nat) (node : Nat) : Prop where
  nodup : path.Nodup
  chain : path.IsChain (Leads next)
  mem : node ∈ path
  closes : ∀ last ∈ path.getLast?, Leads next last node

/-- What is closed is the part of the path from the node on. -/
theorem closing_append {before after : List Nat} (h : node ∉ before) :
    closing (before ++ node :: after) node = node :: after ++ [node] := by
  have hfind : (before ++ node :: after).findIdx? (· = node) = some before.length := by
    have hnone : before.findIdx? (· = node) = none :=
      List.findIdx?_eq_none_iff.mpr fun a ha => decide_eq_false fun heq => h (heq ▸ ha)
    simp [List.findIdx?_append, hnone, List.findIdx?_cons]
  rw [closing, hfind, Option.getD_some, List.drop_left]

theorem WayBack.simpleCycle (h : WayBack next path node) :
    SimpleCycle (Leads next) (closing path node) := by
  obtain ⟨hnodup, hchain, hmem, hcloses⟩ := h
  obtain ⟨before, after, rfl, hbefore⟩ := List.eq_append_cons_of_mem hmem
  rw [closing_append hbefore]
  refine ⟨by simp, by rw [List.getLast?_concat]; rfl, ?_, ?_⟩
  · refine List.isChain_append.mpr ⟨(List.isChain_append.mp hchain).2.1, .singleton node, ?_⟩
    intro last hlast a ha
    cases Option.mem_some_iff.mp ha
    exact hcloses last (by simpa using hlast)
  · rw [List.dropLast_concat]
    exact (List.nodup_append.mp hnodup).2.1

/-! ## What the search knows -/

namespace Search

theorem mark_set (marks : List Mark) (m : Mark) (path path' : List Nat)
    (h : node < marks.length) : (⟨marks.set node m, path⟩ : Search).mark n =
      if n = node then m else (⟨marks, path'⟩ : Search).mark n := by
  unfold mark
  rw [List.getD_eq_getElem?_getD, List.getD_eq_getElem?_getD, List.getElem?_set]
  by_cases hn : n = node
  · subst hn
    simp [h]
  · simp [hn, Ne.symm hn]

theorem mark_enter (h : node < s.marks.length) :
    (s.enter node).mark n = if n = node then .underWay else s.mark n :=
  mark_set s.marks .underWay _ s.path h

theorem mark_leave (h : node < s.marks.length) :
    (s.leave node).mark n = if n = node then .done else s.mark n :=
  mark_set s.marks .done _ s.path h

theorem mark_fresh (size n : Nat) : (fresh size).mark n = if n < size then .unseen else .done := by
  unfold mark fresh
  rw [List.getD_eq_getElem?_getD, List.getElem?_replicate]
  split <;> rfl

/-- Numbers that are not nodes are done with. -/
theorem lt_of_mark_ne_done (h : s.mark n ≠ .done) : n < s.marks.length := by
  by_contra hn
  exact h (by simp [mark, List.getElem?_eq_none (Nat.le_of_not_lt hn)])

/-- The nodes under way are a path, and from those done with one comes nowhere else. -/
structure Sound (next : Nat → List Nat) (size : Nat) (s : Search) : Prop where
  length : s.marks.length = size
  underWay_iff : ∀ n, s.mark n = .underWay ↔ n ∈ s.path
  nodup : s.path.Nodup
  chain : s.path.IsChain (Leads next)
  closed : ∀ a b, s.mark a = .done → Leads next a b → s.mark b = .done
  acyclic : ∀ a, s.mark a = .done → ¬ TransGen (Leads next) a a

theorem Sound.fresh (hnext : ∀ a b, Leads next a b → a < size) :
    Sound next size (fresh size) := by
  have hnode : ∀ a, (Search.fresh size).mark a = .done → ¬ a < size := fun a ha hlt => by
    rw [mark_fresh, if_pos hlt] at ha
    cases ha
  refine ⟨by simp [Search.fresh], fun n => ?_, List.nodup_nil, .nil, ?_, ?_⟩
  · rw [mark_fresh]
    split <;> simp [Search.fresh]
  · exact fun a b ha hlead => absurd (hnext a b hlead) (hnode a ha)
  · intro a ha hcycle
    obtain ⟨b, hlead, -⟩ := TransGen.head'_iff.mp hcycle
    exact hnode a ha (hnext a b hlead)

theorem Sound.done_of_reflTransGen (h : Sound next size s) {a b : Nat} (ha : s.mark a = .done)
    (hab : ReflTransGen (Leads next) a b) : s.mark b = .done := by
  induction hab with
  | refl => exact ha
  | tail _ hlead ih => exact h.closed _ _ ih hlead

/-- Nodes that were not seen are not on the path. -/
theorem Sound.not_mem_path (h : Sound next size s) (hnode : s.mark node = .unseen) :
    node ∉ s.path := by
  intro hmem
  rw [(h.underWay_iff node).mpr hmem] at hnode
  cases hnode

/-- A path never has all nodes on it while there is one that was not seen. -/
theorem Sound.length_path_lt (h : Sound next size s) (hnode : s.mark node = .unseen) :
    s.path.length < size := by
  have hbelow : node :: s.path ⊆ List.range size := by
    intro a ha
    rw [List.mem_range, ← h.length]
    rcases List.mem_cons.mp ha with rfl | ha
    · exact lt_of_mark_ne_done (by simp [hnode])
    · exact lt_of_mark_ne_done (by simp [(h.underWay_iff a).mpr ha])
  have hdistinct : (node :: s.path).Nodup :=
    List.nodup_cons.mpr ⟨h.not_mem_path hnode, h.nodup⟩
  have hlength := (List.Nodup.subperm hdistinct hbelow).length_le
  rwa [List.length_cons, List.length_range] at hlength

theorem Sound.enter (h : Sound next size s) (hnode : s.mark node = .unseen)
    (hlast : ∀ last ∈ s.path.getLast?, Leads next last node) : Sound next size (s.enter node) := by
  have hlt : node < s.marks.length := lt_of_mark_ne_done (by simp [hnode])
  have hdone : ∀ a, (s.enter node).mark a = .done ↔ s.mark a = .done := by
    intro a
    rw [mark_enter hlt]
    split
    · rename_i heq
      simp [heq, hnode]
    · rfl
  refine ⟨by simp [Search.enter, h.length], fun n => ?_, ?_, ?_, ?_, ?_⟩
  · rw [mark_enter hlt, Search.enter, List.mem_append, List.mem_singleton, ← h.underWay_iff]
    split <;> simp_all
  · exact List.nodup_append.mpr ⟨h.nodup, List.nodup_singleton node, fun a ha b hb heq =>
      h.not_mem_path hnode (List.mem_singleton.mp hb ▸ heq ▸ ha)⟩
  · refine List.isChain_append.mpr ⟨h.chain, .singleton node, fun last hmem a ha => ?_⟩
    cases Option.mem_some_iff.mp ha
    exact hlast last hmem
  · exact fun a b ha hlead => (hdone b).mpr (h.closed a b ((hdone a).mp ha) hlead)
  · exact fun a ha => h.acyclic a ((hdone a).mp ha)

/-- A node can be left once all that it points to is done with. -/
theorem Sound.leave (h : Sound next size s) (hpath : s.path = path ++ [node])
    (hdone : ∀ b, Leads next node b → s.mark b = .done) : Sound next size (s.leave node) := by
  have hunder : s.mark node = .underWay := (h.underWay_iff node).mpr (by simp [hpath])
  have hlt : node < s.marks.length := lt_of_mark_ne_done (by simp [hunder])
  have hnodup := h.nodup
  rw [hpath, List.nodup_append] at hnodup
  obtain ⟨hbefore, -, hapart⟩ := hnodup
  have hpath' : (s.leave node).path = path := by simp [Search.leave, hpath]
  have hmono : ∀ a, s.mark a = .done → (s.leave node).mark a = .done := fun a ha => by
    rw [mark_leave hlt]
    split
    · rfl
    · exact ha
  have hcases : ∀ a, (s.leave node).mark a = .done → a = node ∨ s.mark a = .done := fun a ha => by
    rw [mark_leave hlt] at ha
    split at ha
    · exact .inl ‹_›
    · exact .inr ha
  refine ⟨by simp [Search.leave, h.length], fun n => ?_, hpath' ▸ hbefore, ?_, ?_, ?_⟩
  · rw [mark_leave hlt, hpath']
    split
    · rename_i heq
      simpa using fun hmem => hapart n hmem node (by simp) heq
    · rename_i hne
      simp [h.underWay_iff, hpath, hne]
  · have hchain := h.chain
    rw [hpath] at hchain
    exact hpath' ▸ (List.isChain_append.mp hchain).1
  · intro a b ha hlead
    rcases hcases a ha with rfl | ha
    · exact hmono b (hdone b hlead)
    · exact hmono b (h.closed a b ha hlead)
  · intro a ha hcycle
    rcases hcases a ha with rfl | ha
    · -- the way back would lead over nodes that are done with to one that is under way
      obtain ⟨b, hlead, hback⟩ := TransGen.head'_iff.mp hcycle
      have hdoneself := h.done_of_reflTransGen (hdone b hlead) hback
      rw [hunder] at hdoneself
      cases hdoneself
    · exact h.acyclic a ha hcycle

/-- The search came back to where it was, and knows no less. -/
structure Resumes (s s' : Search) : Prop where
  path_eq : s'.path = s.path
  done : ∀ a, s.mark a = .done → s'.mark a = .done

theorem Resumes.refl (s : Search) : Resumes s s := ⟨rfl, fun _ ha => ha⟩

end Search

/-! ## How a search ends -/

/-- A search through `nodes` from `s` gets through them all, or comes upon a way back. -/
inductive Ends (next : Nat → List Nat) (size : Nat) (s : Search) (nodes : List Nat) :
    Except Halt Search → Prop where
  | through {s' : Search} (sound : s'.Sound next size) (resumes : s.Resumes s')
      (done : ∀ n ∈ nodes, s'.mark n = .done) : Ends next size s nodes (.ok s')
  | wayBack {path : List Nat} {node : Nat} (back : WayBack next path node) :
      Ends next size s nodes (.error (.wayBack path node))

/-- Steps that end like this, one after another, end like this. -/
theorem ends_foldlM {f : Search → Nat → Except Halt Search} {nodes : List Nat} (path : List Nat)
    (hstep : ∀ s, s.Sound next size → s.path = path → ∀ n ∈ nodes, Ends next size s [n] (f s n))
    (hs : s.Sound next size) (hpath : s.path = path) :
    Ends next size s nodes (nodes.foldlM f s) := by
  induction nodes generalizing s with
  | nil => exact .through hs (.refl s) (fun n hn => by cases hn)
  | cons n rest ih =>
    rw [List.foldlM_cons]
    have hfirst := hstep s hs hpath n List.mem_cons_self
    cases hn : f s n with
    | error e =>
      rw [hn] at hfirst
      cases hfirst with
      | wayBack back => exact .wayBack back
    | ok s₁ =>
      rw [hn] at hfirst
      cases hfirst with
      | through sound resumes done =>
        have hrest := ih (fun s hs hp m hm => hstep s hs hp m (List.mem_cons_of_mem _ hm)) sound
          (resumes.path_eq.trans hpath)
        have hbind : (Except.ok s₁ >>= fun s => rest.foldlM f s) = rest.foldlM f s₁ := rfl
        rw [hbind]
        generalize rest.foldlM f s₁ = result at hrest ⊢
        cases hrest with
        | wayBack back => exact .wayBack back
        | through sound' resumes' done' =>
          refine .through sound' ⟨resumes'.path_eq.trans resumes.path_eq,
            fun a ha => resumes'.done a (resumes.done a ha)⟩ fun m hm => ?_
          rcases List.mem_cons.mp hm with rfl | hm
          · exact resumes'.done m (done m (List.mem_singleton_self m))
          · exact done' m hm

/-- Following a pointer from the end of the path ends so, if visits do. -/
theorem ends_follow {visit : Search → Nat → Except Halt Search} (hs : s.Sound next size)
    (hpath : s.path = path ++ [node]) (hlead : Leads next node n)
    (hvisit : s.mark n = .unseen → Ends next size s [n] (visit s n)) :
    Ends next size s [n] (follow visit s n) := by
  unfold follow
  split
  · rename_i hunder
    refine .wayBack ⟨hs.nodup, hs.chain, (hs.underWay_iff n).mp hunder, fun last hlast => ?_⟩
    rw [hpath, List.getLast?_concat] at hlast
    cases Option.mem_some_iff.mp hlast
    exact hlead
  · rename_i hunseen
    exact hvisit hunseen
  · rename_i hdone
    exact .through hs (.refl s) fun m hm => List.mem_singleton.mp hm ▸ hdone

/-- The search from a node that was not seen, with depth for all nodes that are not on the path. -/
theorem ends_explore (hs : s.Sound next size) (hnode : s.mark node = .unseen)
    (hlast : ∀ last ∈ s.path.getLast?, Leads next last node)
    (hdepth : size ≤ s.path.length + depth) :
    Ends next size s [node] (explore next depth s node) := by
  induction depth generalizing s node with
  | zero => exact absurd (hs.length_path_lt hnode) (by omega)
  | succ depth ih =>
    have hlt : node < s.marks.length := Search.lt_of_mark_ne_done (by simp [hnode])
    have hfold : Ends next size (s.enter node) (next node)
        ((next node).foldlM (follow (explore next depth)) (s.enter node)) := by
      refine ends_foldlM (s.path ++ [node]) (fun s₁ hs₁ hpath n hn => ?_)
        (hs.enter hnode hlast) rfl
      refine ends_follow hs₁ hpath hn fun hunseen => ih hs₁ hunseen (fun last hmem => ?_) ?_
      · rw [hpath, List.getLast?_concat] at hmem
        cases Option.mem_some_iff.mp hmem
        exact hn
      · rw [hpath, List.length_append, List.length_singleton]
        omega
    rw [explore]
    generalize (next node).foldlM (follow (explore next depth)) (s.enter node) = result at hfold ⊢
    cases hfold with
    | wayBack back => exact .wayBack back
    | @through s' sound resumes done =>
      have hlt' : node < s'.marks.length := by rwa [sound.length, ← hs.length]
      refine .through (sound.leave resumes.path_eq done) ⟨?_, ?_⟩ ?_
      · rw [Search.leave, resumes.path_eq, Search.enter, List.dropLast_concat]
      · intro a ha
        have hne : a ≠ node := fun heq => by
          rw [heq, hnode] at ha
          cases ha
        rw [Search.mark_leave hlt', if_neg hne]
        exact resumes.done a (by rwa [Search.mark_enter hlt, if_neg hne])
      · intro n hn
        rw [Search.mark_leave hlt', if_pos (List.mem_singleton.mp hn)]

/-- **The search from all nodes ends**, with depth for all of them. -/
theorem ends_search (hnext : ∀ a b, Leads next a b → a < size) (hdepth : size ≤ depth) :
    Ends next size (.fresh size) (List.range size) (search next depth size) := by
  refine ends_foldlM [] (fun s hs hpath n _ => ?_) (.fresh hnext) rfl
  split
  · rename_i hunseen
    exact ends_explore hs hunseen (by simp [hpath]) (by omega)
  · rename_i hseen
    refine .through hs (.refl s) fun m hm => ?_
    rw [List.mem_singleton.mp hm]
    cases hmark : s.mark n with
    | unseen => exact absurd hmark hseen
    | underWay =>
      have hmem := (hs.underWay_iff n).mp hmark
      rw [hpath] at hmem
      cases hmem
    | done => rfl

/-- **The search gets through exactly if there is no cycle**, and otherwise comes upon a way
back. -/
theorem search_cases (hnext : ∀ a b, Leads next a b → a < size) (hdepth : size ≤ depth) :
    ((∃ s, search next depth size = .ok s) ∧ ∀ a, ¬ TransGen (Leads next) a a) ∨
    ∃ path node, search next depth size = .error (.wayBack path node) ∧
      WayBack next path node := by
  have hends := ends_search hnext hdepth
  generalize search next depth size = result at hends ⊢
  cases hends with
  | wayBack back => exact .inr ⟨_, _, rfl, back⟩
  | @through s sound _ done =>
    refine .inl ⟨⟨s, rfl⟩, fun a hcycle => ?_⟩
    obtain ⟨b, hlead, -⟩ := TransGen.head'_iff.mp hcycle
    exact sound.acyclic a (done a (List.mem_range.mpr (hnext a b hlead))) hcycle

/-! ## Depth -/

/-- Chains whose steps agree, but where the first of them stops for want of depth. -/
theorem foldlM_of_deeper {f g : Search → Nat → Except Halt Search} {nodes : List Nat}
    (h : ∀ s n, f s n ≠ .error .tooDeep → g s n = f s n)
    (hfold : nodes.foldlM f s ≠ .error .tooDeep) : nodes.foldlM g s = nodes.foldlM f s := by
  induction nodes generalizing s with
  | nil => rfl
  | cons n rest ih =>
    rw [List.foldlM_cons] at hfold ⊢
    rw [List.foldlM_cons]
    cases hn : f s n with
    | error e =>
      rw [hn] at hfold
      rw [h s n (hn ▸ hfold), hn]
      rfl
    | ok s' =>
      rw [hn] at hfold
      rw [h s n (by simp [hn]), hn]
      exact ih hfold

theorem explore_of_deeper (h : explore next depth s node ≠ .error .tooDeep) :
    explore next (depth + 1) s node = explore next depth s node := by
  induction depth generalizing s node with
  | zero => exact absurd rfl h
  | succ depth ih =>
    have hfollow : ∀ s n, follow (explore next depth) s n ≠ .error .tooDeep →
        follow (explore next (depth + 1)) s n = follow (explore next depth) s n := by
      intro s n hn
      unfold follow at hn ⊢
      split
      · rfl
      · rename_i hunseen
        rw [hunseen] at hn
        exact ih hn
      · rfl
    rw [explore] at h
    rw [explore, foldlM_of_deeper hfollow fun hfold => h (by rw [hfold]; rfl), explore]

/-- **Depth beyond the number of nodes changes nothing.** -/
theorem search_of_deeper (hnext : ∀ a b, Leads next a b → a < size) (hdepth : size ≤ depth) :
    search next depth size = search next size size := by
  induction depth, hdepth using Nat.le_induction with
  | base => rfl
  | succ depth hdepth ih =>
    have hends := ends_search hnext hdepth
    rw [← ih]
    refine foldlM_of_deeper (fun s n hn => ?_) fun hfold => ?_
    · split
      · rename_i hunseen
        rw [if_pos hunseen] at hn
        exact explore_of_deeper hn
      · rfl
    · rw [search, hfold] at hends
      cases hends

end SpotGateway.Cycle
