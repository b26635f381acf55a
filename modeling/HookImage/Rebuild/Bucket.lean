/-
# Buckets

The interceptions of one target by mechanism.  Redirects and native jumps stay in the
order of their registration.  Transformations and raw redirects are ordered by priority,
a missing one counting as zero, and among equals by registration.  A raw redirect that
only carries another interception is left out.
-/

import HookImage.Registry.Snapshot

namespace HookImage

/-- The interceptions of a target by mechanism. -/
structure Bucket where
  target : MethodId
  redirects : List Interception := []
  transforms : List Interception := []
  native : List Interception := []
  raw : List Interception := []

namespace Bucket

/-- The number of interceptions. -/
def length (b : Bucket) : Nat :=
  b.redirects.length + b.transforms.length + b.native.length + b.raw.length

/-- Whether there is no interception. -/
def isEmpty (b : Bucket) : Bool := b.length == 0

/-- The priority by which an interception is ordered. -/
def rank (r : Interception) : Int := (r.kind.priority.map (·.toInt)).getD 0

/-- The interceptions by priority, equal ones in their order. -/
def byPriority (records : List Interception) : List Interception :=
  records.mergeSort fun r s => rank r ≤ rank s

/-- The interceptions of a mechanism. -/
def ofTag (records : List Interception) (tag : KindTag) : List Interception :=
  records.filter (·.kind.tag == tag)

/-- Whether an interception carries another one. -/
def carries (records : List Interception) (r : Interception) : Bool :=
  records.any fun s => s.kind.underlying == some r.handle

/-- The bucket of the interceptions of a target in registration order. -/
def classify (target : MethodId) (records : List Interception) : Bucket where
  target
  redirects := ofTag records .redirect
  transforms := byPriority (ofTag records .transform)
  native := ofTag records .native
  raw := byPriority ((ofTag records .raw).filter fun r => !carries records r)

end Bucket
end HookImage
