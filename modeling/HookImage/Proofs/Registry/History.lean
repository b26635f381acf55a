/-
# The registry and its history

The registry keeps its last snapshot until a change of the records.  Whatever was called
before and however many snapshots were taken, a snapshot is that of the interceptions that
were registered and not removed again (`snapshots_history`).

The second side is a reading of the calls alone: `active` keeps a registration exactly if no
later call removes its handle.  It looks forward, while the registry works backwards, taking
records out when a removal comes; `active_append` brings the two together, one call at a
time.  `Tracks` is what a call preserves: the records are the active interceptions, and a kept
snapshot is theirs.
-/

import HookImage.Proofs.Success
import HookImage.Registry.Basic

namespace HookImage
namespace Registry

/-- A call of the registry. -/
inductive Call where
  | register (r : Interception)
  | install (event : InstallEvent) (frames : List CallFrame)
  | unregister (handle : HandleId)
  | uninstall (handle : HandleId)
  | snapshot

namespace Call

/-- The interception that a call adds, where the policy tells the owner of an installation. -/
def added? (policy : OwnerPolicy) : Call → Option Interception
  | register r => some r
  | install event frames => some { event with owner := (policy.owner? frames).map (·.id) }
  | unregister _ | uninstall _ | snapshot => none

/-- Whether a call removes the interceptions with a handle. -/
def removes (call : Call) (handle : HandleId) : Bool :=
  match call with
  | unregister h | uninstall h => h == handle
  | register _ | install .. | snapshot => false

/-- Whether a call asks for a snapshot. -/
def asks : Call → Bool
  | snapshot => true
  | _ => false

/-- A removal adds nothing, and is of one handle. -/
theorem added?_of_removes (policy : OwnerPolicy) {call : Call} {handle : HandleId}
    (h : call.removes handle) :
    call.added? policy = none ∧ ∀ other, call.removes other → other = handle := by
  cases call with
  | unregister _ | uninstall _ =>
    obtain rfl := eq_of_beq h
    exact ⟨rfl, fun other same => (eq_of_beq same).symm⟩
  | register _ | install _ _ | snapshot => cases h

/-- A call that adds an interception removes none. -/
theorem removes_of_added? {policy : OwnerPolicy} {call : Call} {r : Interception}
    (h : call.added? policy = some r) (handle : HandleId) : call.removes handle = false := by
  cases call with
  | unregister _ | uninstall _ | snapshot => cases h
  | register _ | install _ _ => rfl

end Call

/-- The interceptions that calls leave active, in the order of their registration: those whose
handle no later call removes. -/
def active (policy : OwnerPolicy) : List Call → List Interception
  | [] => []
  | call :: later =>
    ((call.added? policy).filter fun r => !later.any (·.removes r.handle)).toList ++
      active policy later

/-- The snapshots that calls ask for behind the calls `before`, each of the interceptions that
are active at that moment. -/
def answers (policy : OwnerPolicy) (before : List Call) : List Call → List Snapshot
  | [] => []
  | call :: later =>
    (if call.asks then [Snapshot.build (active policy before)] else []) ++
      answers policy (before ++ [call]) later

/-- Serves a call, and gives the snapshot if it asks for one. -/
def serve (reg : Registry) : Call → Except Error (Option Snapshot × Registry)
  | .register r => do
    let (reg, _) ← reg.register r
    return (none, reg)
  | .install event frames => do
    let reg ← (reg.install event frames).1
    return (none, reg)
  | .unregister handle => do
    let (_, reg) ← reg.unregister handle
    return (none, reg)
  | .uninstall handle => do
    let reg ← reg.uninstall handle
    return (none, reg)
  | .snapshot => do
    let (taken, reg) ← reg.snapshot
    return (some taken.snapshot, reg)

/-- Serves calls in order, and gives the snapshots that they ask for. -/
def serveAll (reg : Registry) : List Call → Except Error (List Snapshot × Registry)
  | [] => return ([], reg)
  | call :: later => do
    let (answer, reg) ← reg.serve call
    let (rest, reg) ← serveAll reg later
    return (answer.toList ++ rest, reg)

/-- The snapshots that a new registry gives for calls. -/
def snapshots (policy : OwnerPolicy) (calls : List Call) : Except Error (List Snapshot) :=
  (serveAll { policy } calls).map (·.1)

variable {policy : OwnerPolicy} {calls : List Call} {reg : Registry}

/-! ### Active interceptions -/

/-- **One more call** takes the interceptions out that it removes, and adds its own. -/
theorem active_append (policy : OwnerPolicy) (calls : List Call) (call : Call) :
    active policy (calls ++ [call]) =
      (active policy calls).filter (fun r => !call.removes r.handle) ++
        (call.added? policy).toList := by
  induction calls with
  | nil => cases call <;> simp [active, Call.added?]
  | cons first later ih =>
    -- For the first of the calls the new one is one more that comes later; it decides nothing
    -- where an earlier one removes the handle already.
    simp only [List.cons_append, active, ih, List.any_append, List.any_cons, List.any_nil,
      Bool.or_false, List.filter_append, ← List.append_assoc]
    congr 2
    cases first.added? policy with
    | none => rfl
    | some r =>
      by_cases gone : later.any (·.removes r.handle) = true
      · simp [Option.filter, gone]
      · by_cases now : call.removes r.handle = true <;> simp [Option.filter, gone, now]

/-- What is active behind a call was active and is not removed, or is what the call adds. -/
theorem mem_active_append {call : Call} {r : Interception} :
    r ∈ active policy (calls ++ [call]) ↔
      (r ∈ active policy calls ∧ call.removes r.handle = false) ∨ call.added? policy = some r := by
  simp [active_append]

/-- A handle that is not active becomes active only by a registration. -/
theorem not_active_of_not_added {handle : HandleId} {later : List Call}
    (absent : ∀ r ∈ active policy calls, r.handle ≠ handle)
    (silent : ∀ call ∈ later, ∀ r, call.added? policy = some r → r.handle ≠ handle) :
    ∀ r ∈ active policy (calls ++ later), r.handle ≠ handle := by
  induction later generalizing calls with
  | nil => simpa using absent
  | cons call later ih =>
    rw [List.append_cons]
    refine ih (fun r hr => ?_) fun c hc => silent c (List.mem_cons_of_mem _ hc)
    rcases mem_active_append.1 hr with ⟨old, -⟩ | new
    · exact absent r old
    · exact silent call (List.mem_cons_self ..) r new

/-- Right after its removal a handle is not active. -/
theorem not_active_of_removes {handle : HandleId} {call : Call} (h : call.removes handle) :
    ∀ r ∈ active policy (calls ++ [call]), r.handle ≠ handle := by
  rintro r hr rfl
  rcases mem_active_append.1 hr with ⟨-, kept⟩ | new
  · rw [h] at kept
    cases kept
  · rw [(Call.added?_of_removes policy h).1] at new
    cases new

/-- Requests for snapshots change nothing. -/
theorem active_append_asks {between : List Call} (quiet : ∀ call ∈ between, call.asks) :
    active policy (calls ++ between) = active policy calls := by
  induction between generalizing calls with
  | nil => rw [List.append_nil]
  | cons call between ih =>
    have asks := quiet call (List.mem_cons_self ..)
    rw [List.append_cons, ih fun c hc => quiet c (List.mem_cons_of_mem _ hc), active_append]
    cases call <;> simp_all [Call.asks, Call.removes, Call.added?]

/-- A registration of a handle that is not active is undone by its removal. -/
theorem active_register_remove {add remove : Call} {r : Interception} {between : List Call}
    (added : add.added? policy = some r) (removes : remove.removes r.handle)
    (new : ∀ a ∈ active policy calls, a.handle ≠ r.handle)
    (quiet : ∀ call ∈ between, call.asks) :
    active policy (calls ++ add :: between ++ [remove]) = active policy calls := by
  obtain ⟨adds, only⟩ := Call.added?_of_removes policy removes
  have stays : ∀ a ∈ active policy calls, (!remove.removes a.handle) = true := by
    intro a ha
    rw [Bool.not_eq_true', Bool.eq_false_iff]
    exact fun gone => new a ha (only _ gone)
  have before : active policy (calls ++ [add]) = active policy calls ++ [r] := by
    simp [active_append, Call.removes_of_added? added, added]
  rw [active_append, adds, List.append_cons, active_append_asks quiet, before,
    List.filter_append, List.filter_eq_self.2 stays]
  simp [removes]

/-! ### What a call preserves -/

/-- A registry behind some calls: its records are the active interceptions, and a snapshot that
it keeps is theirs. -/
structure Tracks (policy : OwnerPolicy) (calls : List Call) (reg : Registry) : Prop where
  rules : reg.policy = policy
  healthy : reg.poisoned = false
  records : reg.records = active policy calls
  index : ∀ kept ∈ reg.index, kept.snapshot = Snapshot.build reg.records

/-- A new registry tracks no calls. -/
theorem tracks_nil (policy : OwnerPolicy) : Tracks policy [] { policy } where
  rules := rfl
  healthy := rfl
  records := rfl
  index := fun _ h => by cases h

/-- Registering puts the interception behind the others. -/
theorem Tracks.register (h : Tracks policy calls reg) (r : Interception) :
    ∃ notes, reg.register r =
      .ok ({ reg with records := reg.records ++ [r], index := none }, notes) := by
  rw [Registry.register, h.healthy]
  exact ⟨_, rfl⟩

/-- A registration drops the kept snapshot. -/
theorem Tracks.added (h : Tracks policy calls reg) (call : Call) {r : Interception}
    (added : call.added? policy = some r) : Tracks policy (calls ++ [call])
      { reg with records := reg.records ++ [r], index := none } where
  rules := h.rules
  healthy := h.healthy
  records := by simp [active_append, Call.removes_of_added? added, added, h.records]
  index := fun _ kept => by cases kept

/-- A removal keeps the snapshot only where it takes nothing out. -/
theorem Tracks.unregister (h : Tracks policy calls reg) (call : Call) {handle : HandleId}
    (removes : call.removes = fun other => handle == other) (adds : call.added? policy = none) :
    ∃ n reg', reg.unregister handle = .ok (n, reg') ∧ Tracks policy (calls ++ [call]) reg' := by
  rw [Registry.unregister, h.healthy]
  refine ⟨_, _, rfl, h.rules, rfl, ?_, ?_⟩
  · have same (r : Interception) : (r.handle != handle) = !call.removes r.handle := by
      rw [removes, bne, BEq.comm]
    simp only [active_append, adds, Option.toList_none, List.append_nil, ← h.records, same]
  · dsimp only
    intro kept hkept
    split at hkept
    · cases hkept
    · rename_i none
      have whole : reg.records.filter (·.handle != handle) = reg.records := by
        apply (List.filter_sublist).eq_of_length_le
        omega
      rw [whole]
      exact h.index kept hkept

/-- A snapshot is that of the active interceptions, whether it was kept or is built. -/
theorem Tracks.snapshot (h : Tracks policy calls reg) :
    ∃ taken reg', reg.snapshot = .ok (taken, reg') ∧
      taken.snapshot = Snapshot.build (active policy calls) ∧
        Tracks policy (calls ++ [.snapshot]) reg' := by
  have same : active policy (calls ++ [.snapshot]) = active policy calls :=
    active_append_asks (by simp [Call.asks])
  rw [Registry.snapshot, h.healthy]
  rcases kept : reg.index with _ | taken
  · refine ⟨_, _, rfl, by rw [h.records], h.rules, rfl, by rw [same, h.records], ?_⟩
    rintro _ ⟨⟩
    rfl
  · exact ⟨taken, reg, rfl, by rw [h.index taken kept, h.records],
      h.rules, h.healthy, by rw [same, h.records], h.index⟩

/-- **A call is served**, answers with the snapshot of the active interceptions if it asks for
one, and leaves a registry behind one more call. -/
theorem Tracks.serve (h : Tracks policy calls reg) (call : Call) :
    ∃ reg', reg.serve call = .ok
        (if call.asks then some (Snapshot.build (active policy calls)) else none, reg') ∧
      Tracks policy (calls ++ [call]) reg' := by
  cases call with
  | register r =>
    obtain ⟨notes, run⟩ := h.register r
    exact ⟨_, bind_eq_ok.2 ⟨_, run, rfl⟩, h.added (.register r) rfl⟩
  | install event frames =>
    obtain ⟨notes, run⟩ := h.register
      { event with owner := (reg.policy.owner? frames).map (·.id) }
    refine ⟨_, ?_, h.added (.install event frames) rfl⟩
    rw [Registry.serve, Registry.install, run, h.rules]
    rfl
  | unregister handle =>
    obtain ⟨n, reg', run, tracks⟩ := h.unregister (.unregister handle) rfl rfl
    exact ⟨reg', bind_eq_ok.2 ⟨_, run, rfl⟩, tracks⟩
  | uninstall handle =>
    obtain ⟨n, reg', run, tracks⟩ := h.unregister (.uninstall handle) rfl rfl
    refine ⟨reg', ?_, tracks⟩
    rw [Registry.serve, Registry.uninstall, run]
    rfl
  | snapshot =>
    obtain ⟨taken, reg', run, built, tracks⟩ := h.snapshot
    exact ⟨reg', bind_eq_ok.2 ⟨_, run, built ▸ rfl⟩, tracks⟩

/-! ### Runs -/

/-- Calls are served from any point of a history on. -/
theorem Tracks.serveAll (h : Tracks policy calls reg) (later : List Call) :
    ∃ reg', reg.serveAll later = .ok (answers policy calls later, reg') ∧
      Tracks policy (calls ++ later) reg' := by
  induction later generalizing calls reg with
  | nil => exact ⟨reg, rfl, by rwa [List.append_nil]⟩
  | cons call later ih =>
    -- The served call joins the history, and the rest is served from there.
    obtain ⟨reg₁, now, h₁⟩ := h.serve call
    obtain ⟨reg₂, rest, h₂⟩ := ih h₁
    refine ⟨reg₂, bind_eq_ok.2 ⟨_, now, bind_eq_ok.2 ⟨_, rest, ?_⟩⟩, by rwa [List.append_cons]⟩
    rw [answers]
    cases call.asks <;> rfl

/-- Every answer is the snapshot of what was active at some time. -/
theorem mem_answers {before later : List Call} {s : Snapshot}
    (h : s ∈ answers policy before later) :
    ∃ earlier, earlier <+: later ∧ s = Snapshot.build (active policy (before ++ earlier)) := by
  induction later generalizing before with
  | nil => cases h
  | cons call later ih =>
    rcases List.mem_append.1 h with now | rest
    · split at now
      · exact ⟨[], List.nil_prefix, by simpa using now⟩
      · cases now
    · obtain ⟨earlier, isPrefix, rfl⟩ := ih rest
      exact ⟨call :: earlier, List.cons_prefix_cons.2 ⟨rfl, isPrefix⟩, by
        rw [← List.append_cons]⟩

/-- The answers of calls in two runs are those in one. -/
theorem answers_append (before xs ys : List Call) :
    answers policy before (xs ++ ys) =
      answers policy before xs ++ answers policy (before ++ xs) ys := by
  induction xs generalizing before with
  | nil => rw [List.append_nil]; rfl
  | cons call xs ih =>
    rw [List.cons_append, answers, ih, answers, ← List.append_cons, ← List.append_assoc]

/-- **The snapshots that a registry gives are those of what is active.** -/
theorem snapshots_eq_answers (policy : OwnerPolicy) (calls : List Call) :
    snapshots policy calls = .ok (answers policy [] calls) := by
  obtain ⟨reg, run, -⟩ := (tracks_nil policy).serveAll calls
  rw [snapshots, run]
  rfl

/-- A snapshot taken at the end is that of the interceptions that are active then. -/
theorem snapshots_ask (policy : OwnerPolicy) (calls : List Call) :
    snapshots policy (calls ++ [.snapshot]) =
      .ok (answers policy [] calls ++ [Snapshot.build (active policy calls)]) := by
  rw [snapshots_eq_answers, answers_append, List.nil_append]
  rfl

/-! ### Handles in snapshots -/

/-- Grouping adds one interception and keeps the others. -/
theorem mem_insert {target : MethodId} {r a : Interception}
    {groups : List (MethodId × List Interception)}
    (h : ∃ group ∈ Snapshot.insert target r groups, a ∈ group.2) :
    a = r ∨ ∃ group ∈ groups, a ∈ group.2 := by
  induction groups with
  | nil => exact .inl (by simpa [Snapshot.insert] using h)
  | cons group groups ih =>
    rw [Snapshot.insert] at h
    split at h
    · simp only [List.mem_cons, exists_eq_or_imp, List.mem_append, List.not_mem_nil,
        or_false] at h ⊢
      tauto
    · simp only [List.mem_cons, exists_eq_or_imp] at h ⊢
      rcases h with here | there
      · exact .inr (.inl here)
      · exact (ih there).imp_right .inr

/-- A snapshot holds interceptions of the records only. -/
theorem mem_build {records : List Interception} {a : Interception}
    (h : ∃ group ∈ (Snapshot.build records).groups, a ∈ group.2) : a ∈ records := by
  refine List.foldlRecOn
    (motive := fun groups : List (MethodId × List Interception) =>
      (∃ group ∈ groups, a ∈ group.2) → a ∈ records) records _ (by simp)
    (fun groups ih r hr h => ?_) h
  split at h
  · rcases mem_insert h with rfl | old
    · exact hr
    · exact ih old
  · exact ih h

/-- A snapshot contains no handle that none of its interceptions has. -/
theorem containsHandle_build {records : List Interception} {handle : HandleId}
    (absent : ∀ r ∈ records, r.handle ≠ handle) :
    (Snapshot.build records).containsHandle handle = false := by
  simp only [Snapshot.containsHandle, List.any_eq_false, List.any_eq_true, not_exists, not_and,
    beq_iff_eq]
  exact fun group hgroup r hr => absent r (mem_build ⟨group, hgroup, hr⟩)

/-- **The registry refines its history.**  A new registry serves any calls, and each snapshot is
built of the interceptions whose registration no earlier removal took back.  So after the
removal of a handle no snapshot holds it until it is registered again, and a registration of a
handle that is not active is undone by its removal, also with snapshots in between. -/
theorem snapshots_history (policy : OwnerPolicy) :
    (∀ calls, snapshots policy calls = .ok (answers policy [] calls)) ∧
    (∀ before call later handle, call.removes handle →
      (∀ c ∈ later, ∀ r, c.added? policy = some r → r.handle ≠ handle) →
        ∃ old new, snapshots policy before = .ok old ∧
          snapshots policy (before ++ call :: later) = .ok (old ++ new) ∧
            ∀ s ∈ new, s.containsHandle handle = false) ∧
    (∀ calls add between remove r, add.added? policy = some r → remove.removes r.handle →
      (∀ a ∈ active policy calls, a.handle ≠ r.handle) → (∀ c ∈ between, c.asks) →
        ∃ old new s, snapshots policy (calls ++ [.snapshot]) = .ok (old ++ [s]) ∧
          snapshots policy (calls ++ add :: between ++ [remove, .snapshot]) =
            .ok (new ++ [s])) := by
  refine ⟨snapshots_eq_answers policy, ?_, ?_⟩
  · intro before call later handle removes silent
    refine ⟨_, answers policy before (call :: later), snapshots_eq_answers .., ?_, ?_⟩
    · rw [snapshots_eq_answers, answers_append, List.nil_append]
    · intro s hs
      have quiet : call.asks = false := by cases call <;> first | rfl | cases removes
      rw [answers, quiet, if_neg Bool.false_ne_true, List.nil_append] at hs
      obtain ⟨earlier, isPrefix, rfl⟩ := mem_answers hs
      exact containsHandle_build (not_active_of_not_added (not_active_of_removes removes)
        fun c hc => silent c (isPrefix.subset hc))
  · intro calls add between remove r added removes new quiet
    refine ⟨_, answers policy [] (calls ++ add :: between ++ [remove]), _,
      snapshots_ask policy calls, ?_⟩
    have split : calls ++ add :: between ++ [remove, .snapshot] =
        calls ++ add :: between ++ [remove] ++ [.snapshot] := by simp
    rw [split, snapshots_ask, active_register_remove added removes new quiet]

/-! ### A handle that comes back -/

/-- A redirect of a method under a handle. -/
def redirectOf (handle : HandleId) (target : MethodId) : Interception where
  handle
  target := some target
  replacement := none
  kind := .raw none
  owner := none

/-- The hypotheses are satisfiable: a handle that is registered twice is gone after one removal,
and another one comes and goes with a snapshot in between. -/
theorem snapshots_history_twice :
    (∃ old new, snapshots {} [.register (redirectOf ⟨1⟩ ⟨10⟩), .snapshot,
          .register (redirectOf ⟨1⟩ ⟨20⟩)] = .ok old ∧
        snapshots {} [.register (redirectOf ⟨1⟩ ⟨10⟩), .snapshot, .register (redirectOf ⟨1⟩ ⟨20⟩),
          .uninstall ⟨1⟩, .snapshot, .register (redirectOf ⟨2⟩ ⟨10⟩), .snapshot] =
            .ok (old ++ new) ∧
        ∀ s ∈ new, s.containsHandle ⟨1⟩ = false) ∧
    ∃ old new s, snapshots {} [.register (redirectOf ⟨1⟩ ⟨10⟩), .snapshot] = .ok (old ++ [s]) ∧
      snapshots {} [.register (redirectOf ⟨1⟩ ⟨10⟩), .register (redirectOf ⟨2⟩ ⟨10⟩), .snapshot,
        .unregister ⟨2⟩, .snapshot] = .ok (new ++ [s]) := by
  obtain ⟨-, retired, undone⟩ := snapshots_history {}
  refine ⟨retired [.register (redirectOf ⟨1⟩ ⟨10⟩), .snapshot, .register (redirectOf ⟨1⟩ ⟨20⟩)]
      (.uninstall ⟨1⟩) [.snapshot, .register (redirectOf ⟨2⟩ ⟨10⟩), .snapshot] ⟨1⟩ rfl ?_,
    undone [.register (redirectOf ⟨1⟩ ⟨10⟩)] (.register (redirectOf ⟨2⟩ ⟨10⟩)) [.snapshot]
      (.unregister ⟨2⟩) (redirectOf ⟨2⟩ ⟨10⟩) rfl rfl ?_ (by simp [Call.asks])⟩
  · simp [Call.added?, redirectOf]
  · simp [active, Call.added?, Option.filter, Call.removes, redirectOf]

end Registry
end HookImage
