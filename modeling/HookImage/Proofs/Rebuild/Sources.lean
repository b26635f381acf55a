/-
# Where methods come from

The targets of a snapshot take turns, and the methods of a container are those that the turns have
put there, in their order.  So each of them has a source: the turn of its target, and the place of a
piece among those that the interceptions of the target call for.  The container stands for the type
that declares the target (`Reconstruction.processTarget_homes`).  No two methods of a container have
the same source, because their sources ascend (`Reconstruction.process_sourced`).  Validation only
takes methods out, and the others keep their sources (`Snapshot.reconstruct_sourced`).
-/

import Mathlib
import HookImage.Proofs.Rebuild.Accounting

namespace HookImage

/-- A part of a list on the right is related to a part of the list on the left. -/
theorem forall₂_sublist {α β : Type} {r : α → β → Prop} {xs : List α} {ys ys' : List β}
    (h : List.Forall₂ r xs ys) (part : ys'.Sublist ys) :
    ∃ xs', xs'.Sublist xs ∧ List.Forall₂ r xs' ys' := by
  induction part generalizing xs with
  | slnil =>
    cases h
    exact ⟨[], .slnil, .nil⟩
  | cons y part ih =>
    cases h with
    | cons _ rest =>
      obtain ⟨xs', part', related⟩ := ih rest
      exact ⟨xs', part'.cons _, related⟩
  | cons_cons y part ih =>
    cases h with
    | cons first rest =>
      obtain ⟨xs', part', related⟩ := ih rest
      exact ⟨_, part'.cons_cons _, .cons first related⟩

/-- The members of a part of a list have ascending places in the whole. -/
theorem exists_places {α : Type} {xs ys : List α} (part : ys.Sublist xs) :
    ∃ places : List Nat, places.Pairwise (· < ·) ∧
      List.Forall₂ (fun place y => xs[place]? = some y) places ys := by
  rw [← List.zipIdx_map_fst 0 xs] at part
  obtain ⟨entries, kept, rfl⟩ := List.sublist_map_iff.1 part
  refine ⟨entries.map Prod.snd, ?_, ?_⟩
  · have ascending : (xs.zipIdx.map Prod.snd).Pairwise (· < ·) := by
      rw [List.zipIdx_map_snd]
      exact List.pairwise_lt_range'
    exact ascending.sublist (kept.map _)
  · rw [List.forall₂_map_left_iff, List.forall₂_map_right_iff, List.forall₂_same]
    intro entry mem
    exact List.mem_zipIdx_iff_getElem?.1 (kept.subset mem)

/-- A new image has no containers. -/
theorem Image.empty_create {name : String} {core : ModuleInfo} {attributeName : String}
    {loaded : List ModuleInfo} {image : Image}
    (h : Image.create name core attributeName loaded = .ok image) :
    image.containers = [] ∧ image.roots = [] := by
  unfold Image.create at h
  dsimp only at h
  obtain ⟨⟨base, symbols⟩, -, h⟩ := bind_eq_ok.1 h
  obtain ⟨signature, -, h⟩ := bind_eq_ok.1 h
  cases h
  exact ⟨rfl, rfl⟩

/-- Whether a type declares a method, or an instantiation of the type does. -/
def MethodInfo.DeclaredIn (view : HostView) (home : TypeId) (m : MethodInfo) : Prop :=
  ∃ type t, m.declaringType = some type ∧ Placement.collapse view type = .ok t ∧ t.id = home

namespace Reconstruction

variable {view : HostView} {options : Options} {groups : List (MethodId × List Interception)}
  {S S' : SymbolTable} {m' : SyntheticMethod}

/-- Where a method comes from: the turn of its target, and the place of its piece among those that
the interceptions of the target call for. -/
structure Source where
  turn : Nat
  place : Nat

/-- Whether a source comes before another one. -/
def Source.Before (a b : Source) : Prop := a.turn < b.turn ∨ a.turn = b.turn ∧ a.place < b.place

/-- Whether a method is what becomes of a source, and a table has the rows of its import. -/
def Source.Yields (view : HostView) (options : Options)
    (groups : List (MethodId × List Interception)) (s : SymbolTable) (a : Source)
    (m' : SyntheticMethod) : Prop :=
  ∃ group target piece m, groups[a.turn]? = some group ∧ view.method group.1 = some target ∧
    (pieces options group.2)[a.place]? = some piece ∧
    piece.Gives view options target (.classify group.1 group.2) m ∧ m.ImportedInto view s m'

/-- What a source gives stays so with more targets and more rows. -/
theorem Source.Yields.mono {a : Source} (h : a.Yields view options groups S m')
    (more : List (MethodId × List Interception)) (grows : S.Grows S') :
    a.Yields view options (groups ++ more) S' m' := by
  obtain ⟨group, target, piece, m, turn, known, place, gives, imported⟩ := h
  refine ⟨group, target, piece, m, ?_, known, place, gives, imported.mono grows⟩
  rw [List.getElem?_append_left (List.getElem?_eq_some_iff.1 turn).1, turn]

/-- Whether a source is the turn of a target that a type declares. -/
def Source.Serves (view : HostView) (groups : List (MethodId × List Interception)) (home : TypeId)
    (a : Source) : Prop :=
  ∃ group target, groups[a.turn]? = some group ∧ view.method group.1 = some target ∧
    target.DeclaredIn view home

/-- A source belongs to one of the targets. -/
theorem Source.Serves.turn_lt {a : Source} {home : TypeId} (h : a.Serves view groups home) :
    a.turn < groups.length := by
  obtain ⟨_, _, turn, -⟩ := h
  exact (List.getElem?_eq_some_iff.1 turn).1

/-- What a source serves it serves with more targets. -/
theorem Source.Serves.mono {a : Source} {home : TypeId} (h : a.Serves view groups home)
    (more : List (MethodId × List Interception)) : a.Serves view (groups ++ more) home := by
  have early := h.turn_lt
  obtain ⟨group, target, turn, declared⟩ := h
  exact ⟨group, target, List.getElem?_append_left early ▸ turn, declared⟩

/-- Whether some methods come from sources that ascend, all of them turns of targets that a type
declares. -/
def Ascends (view : HostView) (options : Options)
    (groups : List (MethodId × List Interception)) (s : SymbolTable) (home : TypeId)
    (ms : List SyntheticMethod) : Prop :=
  ∃ sources, List.Forall₂ (Source.Yields view options groups s) sources ms ∧
    sources.Pairwise Source.Before ∧ ∀ a ∈ sources, a.Serves view groups home

/-- Whether the methods of every container come from the turns of targets that its type declares. -/
def Sourced (view : HostView) (options : Options)
    (groups : List (MethodId × List Interception)) (image : Image) : Prop :=
  ∀ k home, image.originals[k]? = some home →
    Ascends view options groups image.symbols home (image.methodsIn k)

/-- What a turn adds goes to the type that declares the target. -/
theorem processTarget_homes {r : Reconstruction} (founded : r.placement.Founded r.image)
    (group : MethodId × List Interception) :
    let r' := r.processTarget view options group
    r.image.originals <+: r'.image.originals ∧
      ∀ k, r'.image.methodsIn k ≠ r.image.methodsIn k → ∃ target home,
        view.method group.1 = some target ∧ r'.image.originals[k]? = some home ∧
          target.DeclaredIn view home := by
  obtain ⟨notes, result, fate, -, run⟩ := processTarget_fate view options r group
  dsimp only
  rw [run]
  cases fate with
  | unknown _ _ | idle _ _ _ | homeless _ _ _ | outside _ _ _ _ =>
    exact ⟨List.prefix_refl _, fun k changed => absurd rfl changed⟩
  | placed known _ _ declared placing =>
    obtain ⟨founded', ⟨t, type, cached⟩, earlier, -⟩ := Placement.founded_of_ok founded placing
    obtain ⟨-, outline, -, -, elsewhere, -⟩ :=
      placed_gains founded placing (made view options _ _) r.diagnostics (r.targets + 1) notes
    have originals := Image.originals_congr outline
    refine ⟨originals ▸ earlier, fun k changed => ⟨_, t.id, known, ?_, _, t, declared, type, rfl⟩⟩
    obtain rfl : k = _ := not_imp_comm.1 (elsewhere k) changed
    rw [originals]
    exact founded' _ _ cached

/-- What a turn adds comes from that turn. -/
theorem processTarget_ascends {r : Reconstruction} (founded : r.placement.Founded r.image)
    (group : MethodId × List Interception) :
    let r' := r.processTarget view options group
    r.image.symbols.Grows r'.image.symbols ∧ ∃ added, r.image.Gains added r'.image ∧
      ∃ places : List Nat, places.Pairwise (· < ·) ∧
        List.Forall₂ (Source.Yields view options (groups ++ [group]) r'.image.symbols)
          (places.map (Source.mk groups.length)) added := by
  obtain ⟨-, grows, added, notes, gains, -, -, outcome⟩ :=
    processTarget_gains view options founded group
  refine ⟨grows, added, gains, ?_⟩
  rcases outcome with ⟨rfl, -⟩ | ⟨target, known, -, imported⟩
  · exact ⟨[], .nil, .nil⟩
  · obtain ⟨kept, part, gives, -⟩ := made_pieces options known
    obtain ⟨places, ascending, named⟩ := exists_places part
    refine ⟨places, ascending, ?_⟩
    have given : List.Forall₂ (fun place m => ∃ piece,
        (pieces options group.2)[place]? = some piece ∧
          piece.Gives view options target (.classify group.1 group.2) m) places
        (made view options target (.classify group.1 group.2)) :=
      forall₂_trans (fun _ piece _ here gives => ⟨piece, here, gives⟩) named gives
    rw [List.forall₂_map_left_iff]
    refine forall₂_trans (fun place m m' ⟨piece, here, gives⟩ imported => ?_) given imported
    exact ⟨group, target, piece, m, List.getElem?_concat_length, known, here, gives, imported⟩

/-- Containers that are to come have no methods yet. -/
theorem Sourced.ascends {image : Image} {originals : List TypeId}
    (sourced : Sourced view options groups image) (earlier : image.originals <+: originals)
    {k : ContainerId} {home : TypeId} (here : originals[k]? = some home) :
    Ascends view options groups image.symbols home (image.methodsIn k) := by
  obtain ⟨more, rfl⟩ := earlier
  by_cases early : k < image.originals.length
  · rw [List.getElem?_append_left early] at here
    exact sourced k home here
  · have none : image.methodsIn k = [] := by
      rw [Image.methodsIn, List.getElem?_eq_none, Option.getD_none]
      rw [Image.methodLists, List.length_map, ← Image.length_originals]
      exact Nat.le_of_not_lt early
    exact ⟨[], none ▸ .nil, .nil, fun a ha => absurd ha List.not_mem_nil⟩

/-- **A turn puts its methods behind those of the turns before it.** -/
theorem processTarget_sourced {r : Reconstruction} (founded : r.placement.Founded r.image)
    (sourced : Sourced view options groups r.image) (group : MethodId × List Interception) :
    Sourced view options (groups ++ [group]) (r.processTarget view options group).image := by
  obtain ⟨grows, added, ⟨-, id, lists⟩, places, ascending, yields⟩ :=
    @processTarget_ascends view options groups r founded group
  obtain ⟨originals, homes⟩ := @processTarget_homes view options r founded group
  intro k home here
  obtain ⟨sources, old, before, serves⟩ := sourced.ascends originals here
  have kept := old.imp fun _ _ (h : Source.Yields ..) => h.mono [group] grows
  have earlier := fun a ha => (serves a ha).mono [group]
  by_cases same : k = id
  · rw [lists k, if_pos same]
    refine ⟨sources ++ places.map (Source.mk groups.length), List.rel_append kept yields, ?_, ?_⟩
    · refine List.pairwise_append.2 ⟨before, ?_, fun a ha b hb => ?_⟩
      · rw [List.pairwise_map]
        exact ascending.imp fun less => .inr ⟨rfl, less⟩
      · obtain ⟨place, -, rfl⟩ := List.mem_map.1 hb
        exact .inl (serves a ha).turn_lt
    · refine List.forall_mem_append.2 ⟨earlier, fun a ha => ?_⟩
      obtain ⟨m', hm', -⟩ := exists_mem_of_forall₂ yields.flip ha
      obtain ⟨target, home', known, here', declared⟩ := homes k (by
        rw [lists k, if_pos same, Ne, List.append_right_eq_self]
        exact List.ne_nil_of_mem hm')
      obtain ⟨place, -, rfl⟩ := List.mem_map.1 ha
      cases here.symm.trans here'
      exact ⟨group, target, List.getElem?_concat_length, known, declared⟩
  · rw [lists k, if_neg same, List.append_nil]
    exact ⟨sources, kept, before, earlier⟩

/-- **Every method comes from the turn of a target**, and no two of a container from the same piece
of one. -/
theorem process_sourced {first : Reconstruction} (started : start view options = .ok first)
    (groups : List (MethodId × List Interception)) :
    Sourced view options groups (first.process view options ⟨groups⟩).image := by
  induction groups using List.reverseRecOn with
  | nil =>
    obtain ⟨image, created, h⟩ := bind_eq_ok.1 started
    cases h
    intro k home here
    have none : image.originals = [] := by
      rw [Image.originals, (Image.empty_create created).1]
      rfl
    exact absurd (none ▸ here : ([] : List TypeId)[k]? = some home) (by simp)
  | append_singleton groups group ih =>
    rw [process_append]
    exact processTarget_sourced (process_founded view options (start_founded started) ⟨groups⟩) ih
      group

end Reconstruction

namespace Snapshot

open Reconstruction

variable {view : HostView} {options : Options}

/-- **The methods of a reconstruction come from sources that ascend**, container by container. -/
theorem reconstruct_sourced {s : Snapshot} {report : Report}
    (h : s.reconstruct view options = .ok report) :
    ∀ c ∈ report.image.containers,
      Ascends view options s.groups report.image.symbols c.standsFor c.methods := by
  obtain ⟨first, started, h⟩ := bind_eq_ok.1 h
  cases h
  intro c hc
  have sourced := process_sourced started s.groups
  dsimp only [finish] at hc ⊢
  rw [Validity.sweep_eq] at hc ⊢
  obtain ⟨d, hd, rfl⟩ := List.mem_map.1 hc
  obtain ⟨k, here⟩ := List.mem_iff_getElem?.1 hd
  have methods : (first.process view options s).image.methodsIn k = d.methods := by
    rw [Image.methodsIn, Image.methodLists, List.getElem?_map, here]
    rfl
  obtain ⟨sources, yields, ascending, serves⟩ := sourced k d.standsFor (by
    rw [Image.originals, List.getElem?_map, here]
    rfl)
  rw [methods] at yields
  obtain ⟨kept, part, yields⟩ := forall₂_sublist yields List.filter_sublist
  exact ⟨kept, yields, ascending.sublist part, fun a ha => serves a (part.subset ha)⟩

end Snapshot
end HookImage
