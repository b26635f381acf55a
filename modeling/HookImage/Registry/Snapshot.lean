/-
# Snapshots

The interceptions of a moment by their targets.  Targets come in the order in which they
were first intercepted, and the interceptions of a target in the order of their
registration.  An interception whose target is not known is in no group.
-/

import HookImage.Registry.Record

namespace HookImage

/-- Interceptions by target. -/
structure Snapshot where
  groups : List (MethodId × List Interception) := []

namespace Snapshot

/-- Adds an interception to the group of a target, which is opened if there is none. -/
def insert (target : MethodId) (r : Interception) :
    List (MethodId × List Interception) → List (MethodId × List Interception)
  | [] => [(target, [r])]
  | (m, rs) :: groups =>
    if m = target then (m, rs ++ [r]) :: groups else (m, rs) :: insert target r groups

/-- The snapshot of interceptions in registration order. -/
def build (records : List Interception) : Snapshot :=
  ⟨records.foldl (fun groups r =>
    match r.resolvedTarget with
    | some target => insert target r groups
    | none => groups) []⟩

/-- The interceptions of a target. -/
def records? (s : Snapshot) (target : MethodId) : Option (List Interception) :=
  (s.groups.find? (·.1 == target)).map (·.2)

/-- Whether an interception with a handle is in a group. -/
def containsHandle (s : Snapshot) (handle : HandleId) : Bool :=
  s.groups.any fun group => group.2.any (·.handle == handle)

/-- The number of interceptions in all groups. -/
def recordCount (s : Snapshot) : Nat := (s.groups.flatMap (·.2)).length

/-- Whether two snapshots hold the same interceptions in the same order. -/
def same (s t : Snapshot) : Bool :=
  s.groups.length == t.groups.length &&
    (s.groups.zip t.groups).all fun (g, h) =>
      g.1 == h.1 && g.2.length == h.2.length && (g.2.zip h.2).all fun (r, q) => r.same q

end Snapshot
end HookImage
