import PubSub.Foundations.LinkedStore

/-!
# Traversals of a list that changes meanwhile

A traversal visits the cells of a list one after the other and writes one log
entry for each.  Between two visits others may link new cells in front of the
list and unlink cells, as long as they do not unlink the cell that the
traversal stands at.  A cell that has been in the list ever since the traversal
began is then visited exactly once.

Main results:

- Structure {lit}`Traversal`: the invariant, over the cells behind and ahead of the
  traversal.
- Theorems {lit}`Traversal.begin`, {lit}`Traversal.advance`, {lit}`Traversal.insert` and
  {lit}`Traversal.erase`: the steps of the traversal and of the others keep it.
- Theorem {lit}`Traversal.finish`: at the end every cell that stayed has exactly one
  log entry.
-/

namespace Foundations

universe u v

/-- A traversal of the list {lit}`seen ++ rest` has visited the cells {lit}`seen`; of the cells
that the list had when it began, {lit}`stayed` are still there.  An entry of the log
belongs to the cell at its address, and {lit}`good` is what is known about the two. -/
structure Traversal {α : Type u} {β : Type v} (addr : β → Addr)
    (good : Addr × α → β → Prop) (stayed seen rest : List (Addr × α)) (log : List β) :
    Prop where
  stayed_mem : ∀ c ∈ stayed, c ∈ seen ∨ c ∈ rest
  visited : ∀ c ∈ stayed, c ∉ rest → ∃ e, log.filter (fun e => addr e = c.1) = [e] ∧ good c e
  ahead : ∀ c ∈ rest, ∀ e ∈ log, addr e ≠ c.1

namespace Traversal

variable {α : Type u} {β : Type v} {addr : β → Addr} {good : Addr × α → β → Prop}
  {stayed seen rest : List (Addr × α)} {log : List β}

/-- A traversal of an empty list. -/
theorem nil : Traversal addr good [] [] [] [] where
  stayed_mem := by simp
  visited := by simp
  ahead := by simp

/-- The first visit. -/
theorem begin {c : Addr × α} (hnodup : (Heap.addrs (c :: rest)).Nodup) {e : β}
    (haddr : addr e = c.1) (hgood : good c e) :
    Traversal addr good (c :: rest) [c] rest [e] where
  stayed_mem := by
    intro d hd
    rcases List.mem_cons.mp hd with rfl | hd
    · exact Or.inl (by simp)
    · exact Or.inr hd
  visited := by
    intro d hd hrest
    rcases List.mem_cons.mp hd with rfl | hd
    · exact ⟨e, by simp [haddr], hgood⟩
    · exact absurd hd hrest
  ahead := by
    intro d hd e' he'
    rw [List.mem_singleton] at he'
    rw [he', haddr]
    have hnot := (List.nodup_cons.mp hnodup).1
    rintro heq
    exact hnot (heq ▸ List.mem_map_of_mem hd)

/-- The next visit. -/
theorem advance {d : Addr × α} (htrav : Traversal addr good stayed seen (d :: rest) log)
    (hnodup : (Heap.addrs (seen ++ d :: rest)).Nodup) {e : β} (haddr : addr e = d.1)
    (hgood : good d e) : Traversal addr good stayed (seen ++ [d]) rest (log ++ [e]) := by
  have hnodup' : (Heap.addrs (d :: rest)).Nodup := by
    rw [Heap.addrs, List.map_append, List.nodup_append] at hnodup
    exact hnodup.2.1
  have hfresh : log.filter (fun e => addr e = d.1) = [] := by
    rw [List.filter_eq_nil_iff]
    intro e' he'
    simpa using htrav.ahead d (by simp) e' he'
  refine ⟨?_, ?_, ?_⟩
  · intro c hc
    rcases htrav.stayed_mem c hc with hseen | hrest
    · exact Or.inl (List.mem_append_left _ hseen)
    · rcases List.mem_cons.mp hrest with rfl | hrest
      · exact Or.inl (by simp)
      · exact Or.inr hrest
  · intro c hc hrest
    rw [List.filter_append]
    by_cases hcd : c = d
    · subst hcd
      exact ⟨e, by simp [hfresh, haddr], hgood⟩
    · rcases htrav.visited c hc (by simp [hcd, hrest]) with ⟨e', he', hgood'⟩
      refine ⟨e', ?_, hgood'⟩
      -- a visited cell is not the one at the address of the new entry
      have hne : d.1 ≠ c.1 := by
        intro heq
        have hmem : e' ∈ log.filter (fun e => addr e = c.1) := by simp [he']
        rw [← heq, hfresh] at hmem
        exact absurd hmem (by simp)
      simp [he', haddr, hne]
  · intro c hc e' he'
    rcases List.mem_append.mp he' with hold | hnew
    · exact htrav.ahead c (List.mem_cons_of_mem _ hc) e' hold
    · rw [List.mem_singleton] at hnew
      rw [hnew, haddr]
      intro heq
      exact (List.nodup_cons.mp hnodup').1 (heq ▸ List.mem_map_of_mem hc)

/-- Somebody links a cell in front of the list. -/
theorem insert (htrav : Traversal addr good stayed seen rest log) (d : Addr × α) :
    Traversal addr good stayed (d :: seen) rest log where
  stayed_mem := by
    intro c hc
    exact (htrav.stayed_mem c hc).imp_left (List.mem_cons_of_mem d)
  visited := htrav.visited
  ahead := htrav.ahead

/-- Somebody unlinks the cell at address {lit}`a`. -/
theorem erase (htrav : Traversal addr good stayed seen rest log) {a : Addr}
    {stayed' : List (Addr × α)} (hstayed : ∀ c ∈ stayed', c ∈ stayed ∧ c.1 ≠ a) :
    Traversal addr good stayed' (seen.filter fun c => c.1 ≠ a) (rest.filter fun c => c.1 ≠ a)
      log where
  stayed_mem := by
    intro c hc
    rcases hstayed c hc with ⟨hmem, hne⟩
    rcases htrav.stayed_mem c hmem with hseen | hrest
    · exact Or.inl (List.mem_filter.mpr ⟨hseen, by simpa using hne⟩)
    · exact Or.inr (List.mem_filter.mpr ⟨hrest, by simpa using hne⟩)
  visited := by
    intro c hc hrest
    rcases hstayed c hc with ⟨hmem, hne⟩
    refine htrav.visited c hmem fun hin => hrest ?_
    exact List.mem_filter.mpr ⟨hin, by simpa using hne⟩
  ahead := by
    intro c hc
    exact htrav.ahead c (List.mem_filter.mp hc).1

/-- Cells of another list are unlinked, or cells that have left the list already. -/
theorem restrict (htrav : Traversal addr good stayed seen rest log)
    {stayed' : List (Addr × α)} (hstayed : ∀ c ∈ stayed', c ∈ stayed) :
    Traversal addr good stayed' seen rest log where
  stayed_mem := fun c hc => htrav.stayed_mem c (hstayed c hc)
  visited := fun c hc => htrav.visited c (hstayed c hc)
  ahead := htrav.ahead

/-- What is known about entries may be weakened on the way. -/
theorem imp {good' : Addr × α → β → Prop} (htrav : Traversal addr good stayed seen rest log)
    (himp : ∀ c e, e ∈ log → good c e → good' c e) :
    Traversal addr good' stayed seen rest log where
  stayed_mem := htrav.stayed_mem
  visited := by
    intro c hc hrest
    rcases htrav.visited c hc hrest with ⟨e, he, hgood⟩
    have hmem : e ∈ log.filter (fun e => addr e = c.1) := by simp [he]
    exact ⟨e, he, himp c e (List.mem_filter.mp hmem).1 hgood⟩
  ahead := htrav.ahead

/-- With nothing ahead, every cell that stayed has exactly one entry. -/
theorem finish (htrav : Traversal addr good stayed seen [] log) {c : Addr × α}
    (hc : c ∈ stayed) : ∃ e, log.filter (fun e => addr e = c.1) = [e] ∧ good c e :=
  htrav.visited c hc (by simp)

end Traversal

/-! ## The order of the cells -/

section Order

variable {β : Type u} {as seen rest : List β} {w a d : β}

/-- Without duplicates, an element comes after another one exactly if it is behind it. -/
theorem pair_sublist_iff (hnodup : (seen ++ w :: rest).Nodup) :
    [w, a].Sublist (seen ++ w :: rest) ↔ a ∈ rest := by
  constructor
  · intro h
    induction seen with
    | nil =>
        rw [List.nil_append, List.sublist_cons_iff] at h
        rcases h with hlater | ⟨r, hr, hrest⟩
        · have hw : w ∈ rest := hlater.subset (by simp)
          exact absurd hw (List.nodup_cons.mp hnodup).1
        · rw [List.cons.injEq] at hr
          rw [← hr.2] at hrest
          exact List.singleton_sublist.mp hrest
    | cons x seen ih =>
        rw [List.cons_append, List.nodup_cons] at hnodup
        rw [List.cons_append, List.sublist_cons_iff] at h
        rcases h with hlater | ⟨r, hr, -⟩
        · exact ih hnodup.2 hlater
        · rw [List.cons.injEq] at hr
          exact absurd (by simp [hr.1]) hnodup.1
  · intro ha
    have hpair : [w, a].Sublist (w :: rest) := (List.singleton_sublist.mpr ha).cons_cons w
    exact hpair.trans (List.sublist_append_right seen _)

/-- An element in front does not matter to the others. -/
theorem pair_sublist_cons_iff (hne : w ≠ d) :
    [w, a].Sublist (d :: as) ↔ [w, a].Sublist as := by
  constructor
  · intro h
    rcases List.sublist_cons_iff.mp h with hlater | ⟨r, hr, -⟩
    · exact hlater
    · rw [List.cons.injEq] at hr
      exact absurd hr.1 hne
  · exact fun h => h.cons d

/-- The order of what a filter leaves stays the same. -/
theorem pair_sublist_filter_iff {p : β → Bool} (hw : p w = true) (ha : p a = true) :
    [w, a].Sublist (as.filter p) ↔ [w, a].Sublist as := by
  constructor
  · exact fun h => h.trans List.filter_sublist
  · intro h
    have hfilter := h.filter p
    rwa [List.filter_cons_of_pos hw, List.filter_cons_of_pos ha, List.filter_nil] at hfilter

end Order

end Foundations
