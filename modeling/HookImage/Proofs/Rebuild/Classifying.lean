/-
# Buckets lose nothing

The interceptions of a target are split by mechanism, and each of them comes into one part, or is a
raw redirect that another interception is built on (`Bucket.classify_partition`).  Transformations
and raw redirects are put in order by priority and keep the order of their registration where
priorities are equal (`Bucket.stableOrder_byPriority`).  There is only one such order
(`StableOrder.eq`), so the two lists are determined by what was registered, and which interceptions
they hold does not depend on the order of registration at all.
-/

import Mathlib
import HookImage.Proofs.StableOrder
import HookImage.Rebuild.Bucket

namespace HookImage
namespace Bucket

variable {records records' sorted : List Interception}

/-! ### Order by priority -/

/-- The order by priority is transitive. -/
theorem rank_trans (r s t : Interception) (h : decide (rank r ≤ rank s))
    (h' : decide (rank s ≤ rank t)) : decide (rank r ≤ rank t) :=
  decide_eq_true ((of_decide_eq_true h).trans (of_decide_eq_true h'))

/-- Any two interceptions are ordered by priority. -/
theorem rank_total (r s : Interception) :
    decide (rank r ≤ rank s) || decide (rank s ≤ rank r) := by
  rw [Bool.or_eq_true, decide_eq_true_eq, decide_eq_true_eq]
  exact le_total _ _

/-- **Interceptions are ordered by priority.** -/
theorem stableOrder_byPriority (records : List Interception) :
    StableOrder rank records (byPriority records) where
  perm := List.mergeSort_perm _ _
  ascending := by
    have ascending : (byPriority records).Pairwise fun r s => decide (rank r ≤ rank s) :=
      List.pairwise_mergeSort rank_trans rank_total records
    exact ascending.imp of_decide_eq_true
  stable p := by
    -- Those of one priority are an ascending part of the list, which sorting leaves as it is.
    have kept : (records.filter fun r => rank r = p).Sublist (byPriority records) := by
      refine List.sublist_mergeSort rank_trans rank_total
        (List.pairwise_of_forall_mem_list fun r hr s hs => ?_) List.filter_sublist
      rw [of_decide_eq_true (List.mem_filter.1 hr).2, of_decide_eq_true (List.mem_filter.1 hs).2]
      exact decide_eq_true le_rfl
    have own := kept.filter fun r => decide (rank r = p)
    simp only [List.filter_filter, Bool.and_self] at own
    have perm : (byPriority records).Perm records := List.mergeSort_perm _ _
    have size := (perm.filter fun r => decide (rank r = p)).length_eq
    exact (own.eq_of_length size.symm).symm

/-- Sorting gives the only order by priority. -/
theorem eq_byPriority_iff : StableOrder rank records sorted ↔ sorted = byPriority records :=
  ⟨fun h => h.eq (stableOrder_byPriority records), fun h => h ▸ stableOrder_byPriority records⟩

/-- Sorting lists with the same interceptions gives lists with the same interceptions. -/
theorem byPriority_perm (h : records'.Perm records) :
    (byPriority records').Perm (byPriority records) :=
  (stableOrder_byPriority records').perm.trans (h.trans (stableOrder_byPriority records).perm.symm)

/-! ### Parts by mechanism -/

/-- Whether an interception is what a redirect or a transformation is built on. -/
def Carried (records : List Interception) (r : Interception) : Prop :=
  ∃ s ∈ records, (s.kind.tag = .redirect ∨ s.kind.tag = .transform) ∧
    s.kind.underlying = some r.handle

/-- The test for what others are built on decides `Carried`. -/
theorem carries_iff {r : Interception} : carries records r ↔ Carried records r := by
  unfold carries Carried
  rw [List.any_eq_true]
  refine exists_congr fun s => and_congr_right fun _ => ?_
  rw [beq_iff_eq]
  cases s.kind <;> simp [InterceptionKind.tag, InterceptionKind.underlying]

instance (records : List Interception) (r : Interception) : Decidable (Carried records r) :=
  decidable_of_iff _ carries_iff

/-- What others are built on does not depend on the order of registration. -/
theorem Carried.congr (h : records'.Perm records) {r : Interception} :
    Carried records' r ↔ Carried records r :=
  exists_congr fun _ => and_congr_left fun _ => h.mem_iff

/-- The interceptions of the four mechanisms are all interceptions. -/
theorem ofTag_perm (records : List Interception) :
    (ofTag records .redirect ++ ofTag records .transform ++ ofTag records .native ++
      ofTag records .raw).Perm records := by
  induction records with
  | nil => exact .nil
  | cons r records ih =>
    have one (tag : KindTag) : ofTag (r :: records) tag =
        if r.kind.tag = tag then r :: ofTag records tag else ofTag records tag := by
      rw [ofTag, List.filter_cons]
      exact if_congr beq_iff_eq rfl rfl
    -- The new interception stands at the head of its part and is moved to the front.
    refine List.Perm.trans ?_ (ih.cons r)
    rw [one, one, one, one]
    cases r.kind.tag with
    | redirect => exact .refl _
    | transform => exact (List.perm_middle.append_right _).append_right _
    | native => exact List.perm_middle.append_right _
    | raw => exact List.perm_middle

/-- The raw redirects that other interceptions are built on. -/
def dropped (records : List Interception) : List Interception :=
  records.filter fun r => r.kind.tag = .raw ∧ Carried records r

/-- The raw redirects that no other interception is built on. -/
def unrelated (records : List Interception) : List Interception :=
  records.filter fun r => r.kind.tag = .raw ∧ ¬Carried records r

/-- The raw redirects of their own are those that the test leaves. -/
theorem unrelated_eq (records : List Interception) :
    unrelated records = (ofTag records .raw).filter fun r => !carries records r := by
  rw [unrelated, ofTag, List.filter_filter]
  refine List.filter_congr fun r _ => ?_
  rw [Bool.eq_iff_iff, decide_eq_true_eq, Bool.and_eq_true, Bool.not_eq_true', ← Bool.not_eq_true,
    carries_iff, beq_iff_eq, and_comm]

/-- The raw redirects that are dropped are those that the test takes. -/
theorem dropped_eq (records : List Interception) :
    dropped records = (ofTag records .raw).filter (carries records) := by
  rw [dropped, ofTag, List.filter_filter]
  refine List.filter_congr fun r _ => ?_
  rw [Bool.eq_iff_iff, decide_eq_true_eq, Bool.and_eq_true, carries_iff, beq_iff_eq, and_comm]

/-- The part of raw redirects are those of their own by priority. -/
theorem raw_classify (target : MethodId) (records : List Interception) :
    (classify target records).raw = byPriority (unrelated records) := by
  rw [unrelated_eq]
  rfl

/-- A raw redirect is dropped, or it comes into its part. -/
theorem raw_perm (records : List Interception) :
    (unrelated records ++ dropped records).Perm (ofTag records .raw) := by
  rw [unrelated_eq, dropped_eq]
  have parts := List.filter_append_perm (fun r => !carries records r) (ofTag records .raw)
  simpa only [Bool.not_not] using parts

/-- The raw redirects of their own do not depend on the order of registration. -/
theorem unrelated_perm (h : records'.Perm records) :
    (unrelated records').Perm (unrelated records) := by
  have same : unrelated records' =
      records'.filter fun r => r.kind.tag = .raw ∧ ¬Carried records r :=
    List.filter_congr fun r _ => by simp only [Carried.congr h]
  rw [same]
  exact h.filter _

/-- **Classifying is a stable partition.**  Redirects and native jumps are those that were
registered, in this order.  The transformations are ordered by priority, in the one order that
keeps their registration where priorities are equal, and so are the raw redirects that nothing is
built on.  With those that something is built on the four parts are all interceptions.  What a part
holds, and how often, does not depend on the order of registration. -/
theorem classify_partition (target : MethodId) (records : List Interception) :
    let b := classify target records
    b.target = target ∧
    b.redirects = records.filter (·.kind.tag == .redirect) ∧
    b.native = records.filter (·.kind.tag == .native) ∧
    (∀ sorted, StableOrder rank (records.filter (·.kind.tag == .transform)) sorted ↔
      sorted = b.transforms) ∧
    (∀ sorted, StableOrder rank (unrelated records) sorted ↔ sorted = b.raw) ∧
    (b.redirects ++ b.transforms ++ b.native ++ (b.raw ++ dropped records)).Perm records ∧
    ∀ records', records'.Perm records →
      (classify target records').redirects.Perm b.redirects ∧
      (classify target records').transforms.Perm b.transforms ∧
      (classify target records').native.Perm b.native ∧
      (classify target records').raw.Perm b.raw := by
  intro b
  refine ⟨rfl, rfl, rfl, fun sorted => eq_byPriority_iff, fun sorted => ?_, ?_,
    fun records' h => ?_⟩
  · exact eq_byPriority_iff.trans (by rw [← raw_classify target])
  · refine List.Perm.trans (.append (.append_right _ (.append_left _ ?_)) ?_) (ofTag_perm records)
    · exact (stableOrder_byPriority _).perm
    · rw [raw_classify]
      exact ((stableOrder_byPriority _).perm.append_right _).trans (raw_perm records)
  · refine ⟨h.filter _, byPriority_perm (h.filter _), h.filter _, ?_⟩
    rw [raw_classify, raw_classify]
    exact byPriority_perm (unrelated_perm h)

/-- Interceptions of a clock: a raw redirect, the redirect that is built on it, and two raw
redirects of their own, of which the second one has the lower priority. -/
def clockInterceptions : List Interception := [
  { handle := ⟨7⟩, target := some ⟨1⟩, replacement := none, owner := none, kind := .raw none },
  { handle := ⟨8⟩, target := some ⟨1⟩, replacement := none, owner := none,
    kind := .redirect (some ⟨7⟩) none },
  { handle := ⟨5⟩, target := some ⟨1⟩, replacement := none, owner := none, kind := .raw none },
  { handle := ⟨6⟩, target := some ⟨1⟩, replacement := none, owner := none,
    kind := .raw (some (-3)) }]

/-- The hypothesis is satisfiable: backwards, too, the raw redirect below another one is dropped,
and the one with the negative priority comes first. -/
theorem classify_partition_backwards :
    clockInterceptions.reverse.Perm clockInterceptions ∧
    (classify ⟨1⟩ clockInterceptions.reverse).raw.Perm (classify ⟨1⟩ clockInterceptions).raw ∧
    (classify ⟨1⟩ clockInterceptions).raw.map (·.handle) = [⟨6⟩, ⟨5⟩] := by
  have perm : clockInterceptions.reverse.Perm clockInterceptions := List.reverse_perm _
  obtain ⟨-, -, -, -, -, -, anyOrder⟩ := classify_partition ⟨1⟩ clockInterceptions
  refine ⟨perm, (anyOrder _ perm).2.2.2, by cbv⟩

end Bucket
end HookImage
