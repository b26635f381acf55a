/-
# Heaps can be read

A content that has an entry is not added again, and what a heap finds it goes on finding
(`Heap.Finds`).  Heaps only grow at their ends, so what an offset names when it is given out it
names in the finished heap (`Heap.addAll_spec`).  With a reader for the entries of each heap it
follows that every offset leads to its content and to no other one (`Heap.addAll_decodable`).

| heap | an entry is read as |
| --- | --- |
| names | text in UTF-8 up to the first zero byte |
| literals | compressed length, text in UTF-16, and the byte that marks unusual text |
| blobs | compressed length and that many bytes |
-/

import Mathlib
import HookImage.Proofs.Image.Literals

namespace HookImage

open Bytes (LiesAt)

/-! ### Reading entries -/

/-- The bytes of a text are those of its characters. -/
theorem Bytes.utf8_eq (s : String) : utf8 s = s.toList.flatMap String.utf8EncodeChar := by
  rw [utf8, String.toUTF8_eq_toByteArray, ← String.utf8Encode_toList, List.utf8Encode,
    List.data_toByteArray]

/-- No character but NUL has a zero byte. -/
theorem zero_notMem_utf8EncodeChar {c : Char} (h : c ≠ '\x00') :
    0 ∉ String.utf8EncodeChar c := by
  have zero {n : Nat} (h : 0 = UInt8.ofNat n) : n % 256 = 0 := by
    have := congrArg UInt8.toNat h
    rw [UInt8.toNat_ofNat'] at this
    exact this.symm
  intro mem
  refine h (Char.toNat_inj.1 (?_ : c.val.toNat = 0))
  unfold String.utf8EncodeChar at mem
  dsimp only at mem
  -- A form of several bytes has a mark in each of them.
  split at mem
  · have := zero (List.mem_singleton.1 mem)
    omega
  · split at mem
    · simp only [List.mem_cons, List.not_mem_nil, or_false] at mem
      rcases mem with mem | mem <;> have := zero mem <;> omega
    · split at mem <;> simp only [List.mem_cons, List.not_mem_nil, or_false] at mem
      · rcases mem with mem | mem | mem <;> have := zero mem <;> omega
      · rcases mem with mem | mem | mem | mem <;> have := zero mem <;> omega

/-- Only the character NUL has a zero byte. -/
theorem Bytes.zero_notMem_utf8 {s : String} (h : '\x00' ∉ s.toList) : 0 ∉ utf8 s := by
  rw [utf8_eq, List.mem_flatMap]
  rintro ⟨c, hc, zero⟩
  exact zero_notMem_utf8EncodeChar (fun nul => h (nul ▸ hc)) zero

/-- A text is read back from its bytes. -/
theorem Bytes.fromUTF8?_utf8 (s : String) : String.fromUTF8? ⟨(utf8 s).toArray⟩ = some s := by
  have bytes : (⟨(utf8 s).toArray⟩ : ByteArray) = s.toUTF8 := by
    rw [utf8, Array.toArray_toList]
  rw [bytes]
  simp only [String.fromUTF8?, String.toUTF8_eq_toByteArray, dif_pos s.isValidUTF8]
  rfl

/-- The name at an offset: the text in UTF-8 up to the first zero byte. -/
def NameHeap.name? (heap : Bytes) (offset : Nat) : Option String := do
  let rest := heap.drop offset
  let length ← rest.findIdx? (· == 0)
  String.fromUTF8? ⟨(rest.take length).toArray⟩

/-- **A name is read back at the offset of its entry**, if it has no NUL. -/
theorem NameHeap.name?_of_liesAt {heap : Bytes} {offset : Nat} {s : String}
    (lies : LiesAt heap offset (entry s)) (text : '\x00' ∉ s.toList) :
    name? heap offset = some s := by
  obtain ⟨front, back, rfl, rfl⟩ := lies
  have ends := Bytes.findIdx?_zero (Bytes.zero_notMem_utf8 text) back
  rw [name?, List.append_assoc, List.drop_left, entry, List.append_assoc, List.singleton_append]
  simp only [ends, Option.bind_eq_bind, Option.bind_some, List.take_left, Bytes.fromUTF8?_utf8]

/-- The blob at an offset. -/
def BlobHeap.blob? (heap : Bytes) (offset : Nat) : Option Bytes := do
  let (length, rest) ← Bytes.compressed? (heap.drop offset)
  let (blob, _) ← Bytes.split? length rest
  return blob

/-- **A blob is read back at the offset of its entry**, if its length has a compressed form. -/
theorem BlobHeap.blob?_of_liesAt {heap : Bytes} {offset : Nat} {blob : Bytes}
    (lies : LiesAt heap offset (entry blob)) (short : blob.length < 0x20000000) :
    blob? heap offset = some blob := by
  obtain ⟨front, back, rfl, rfl⟩ := lies
  rw [blob?, List.append_assoc, List.drop_left, entry, List.append_assoc]
  simp only [Bytes.compressed?_compressedLength short, Bytes.split?_append rfl,
    Option.bind_eq_bind, Option.bind_some, Option.pure_def]

/-- The text of the literal at an offset, if its last byte is the mark of the text. -/
def LiteralHeap.text? (heap : Bytes) (offset : Nat) : Option String := do
  let (s, flag) ← literal? heap offset
  if flag = mark s then some s else none

/-- **A text is read back at the offset of its entry**, if its length has a compressed form. -/
theorem LiteralHeap.text?_of_liesAt {heap : Bytes} {offset : Nat} {s : String}
    (lies : LiesAt heap offset (entry s)) (short : (content s).length < 0x20000000) :
    text? heap offset = some s := by
  rw [text?, literal?_of_liesAt lies short]
  exact if_pos rfl

namespace Heap

variable {κ : Type} [BEq κ] [Hashable κ]

/-- The offsets of contents that are added one after the other, and the heap behind them. -/
def addAll (add : Heap κ → κ → Nat × Heap κ) (heap : Heap κ) : List κ → List Nat × Heap κ
  | [] => ([], heap)
  | content :: contents =>
    let (offset, heap) := add heap content
    let (offsets, heap) := addAll add heap contents
    (offset :: offsets, heap)

/-! ### Contents that have an entry -/

/-- Whether a heap has an entry for a content, at an offset. -/
def Finds (heap : Heap κ) (isFirst : κ → Bool) (content : κ) (offset : Nat) : Prop :=
  if isFirst content then offset = 0 else heap.index[content]? = some offset

variable {heap : Heap κ} {isFirst : κ → Bool} {entry : κ → Bytes} {content : κ} {offset : Nat}

/-- **An entry that is there is not added again.** -/
theorem Finds.place_eq (h : heap.Finds isFirst content offset) (entry : κ → Bytes) :
    heap.place isFirst entry content = (offset, heap) := by
  unfold Finds at h
  unfold place
  split
  · rename_i first
    rw [if_pos first] at h
    rw [h]
  · rename_i later
    rw [if_neg later] at h
    obtain ⟨data, index⟩ := heap
    simp only [intern, h]

variable [LawfulBEq κ]

/-- A content that is added has an entry at the offset that is handed out. -/
theorem finds_place (heap : Heap κ) (isFirst : κ → Bool) (entry : κ → Bytes) (content : κ) :
    (heap.place isFirst entry content).2.Finds isFirst content
      (heap.place isFirst entry content).1 := by
  unfold Finds place
  split
  · rfl
  · rcases heap.intern_cases content entry with ⟨n, known, same⟩ | ⟨-, added⟩
    · rw [same]
      exact known
    · rw [added]
      exact Std.HashMap.getElem?_insert_self

/-- **What a heap finds it goes on finding** at the same offset. -/
theorem Finds.place (h : heap.Finds isFirst content offset) (entry : κ → Bytes) (other : κ) :
    (heap.place isFirst entry other).2.Finds isFirst content offset := by
  unfold Finds Heap.place at *
  split
  · rename_i first
    rwa [if_pos first] at h
  · rename_i later
    rw [if_neg later] at h
    split
    · exact h
    · rcases heap.intern_cases other entry with ⟨n, -, same⟩ | ⟨new, added⟩
      · rw [same]
        exact h
      · rw [added, Std.HashMap.getElem?_insert, if_neg, h]
        intro same
        rw [eq_of_beq same, h] at new
        cases new

/-! ### Contents one after the other -/

omit [LawfulBEq κ] in
/-- Adding contents in two runs is adding them in one. -/
theorem addAll_append (add : Heap κ → κ → Nat × Heap κ) (heap : Heap κ) (xs ys : List κ) :
    addAll add heap (xs ++ ys) =
      ((addAll add heap xs).1 ++ (addAll add (addAll add heap xs).2 ys).1,
        (addAll add (addAll add heap xs).2 ys).2) := by
  have addAll_cons (heap : Heap κ) (x : κ) (xs : List κ) : addAll add heap (x :: xs) =
      ((add heap x).1 :: (addAll add (add heap x).2 xs).1, (addAll add (add heap x).2 xs).2) := rfl
  induction xs generalizing heap with
  | nil => rfl
  | cons x xs ih => rw [List.cons_append, addAll_cons, addAll_cons, ih, List.cons_append]

/-- **Entries stay where they are.**  When contents were added, each of them lies at its offset and
is found there, and so is what was found before. -/
theorem addAll_spec (holds : heap.Holds entry)
    (first : ∀ content, isFirst content → entry content = [0]) (contents : List κ) :
    (addAll (place isFirst entry) heap contents).2.Holds entry ∧
      heap.data.toList <+: (addAll (place isFirst entry) heap contents).2.data.toList ∧
      (∀ content offset, heap.Finds isFirst content offset →
        (addAll (place isFirst entry) heap contents).2.Finds isFirst content offset) ∧
      List.Forall₂ (fun content offset =>
        LiesAt (addAll (place isFirst entry) heap contents).2.data.toList offset (entry content) ∧
        (addAll (place isFirst entry) heap contents).2.Finds isFirst content offset)
        contents (addAll (place isFirst entry) heap contents).1 := by
  induction contents generalizing heap with
  | nil => exact ⟨holds, List.prefix_rfl, fun _ _ => id, .nil⟩
  | cons content contents ih =>
    have adds := holds.place isFirst first content
    obtain ⟨holds', grows, keeps, others⟩ := ih adds.holds
    exact ⟨holds', adds.grows.trans grows, fun _ _ found => keeps _ _ (found.place entry content),
      .cons ⟨adds.lies.mono grows, keeps _ _ (heap.finds_place isFirst entry content)⟩ others⟩

/-- Whether contents that are added to a new heap can be read: every offset lies in the finished
heap and leads to its content there, equal contents have equal offsets and others have others, and
what was there at some time stays. -/
structure Serves (add : Heap κ → κ → Nat × Heap κ) (read? : Bytes → Nat → Option κ)
    (contents : List κ) : Prop where
  reads : List.Forall₂ (fun content offset => offset < (addAll add {} contents).2.data.size ∧
    read? (addAll add {} contents).2.data.toList offset = some content)
    contents (addAll add {} contents).1
  shares : ∀ p ∈ contents.zip (addAll add {} contents).1,
    ∀ q ∈ contents.zip (addAll add {} contents).1, p.1 = q.1 ↔ p.2 = q.2
  stays : ∀ before later, contents = before ++ later →
    (addAll add {} before).1 <+: (addAll add {} contents).1 ∧
      (addAll add {} before).2.data.toList <+: (addAll add {} contents).2.data.toList

/-- **Contents of which each can be read at its entry can be read from the finished heap.** -/
theorem serves_place (isFirst : κ → Bool) {read? : Bytes → Nat → Option κ} {contents : List κ}
    (first : ∀ content, isFirst content → entry content = [0])
    (filled : ∀ content, entry content ≠ [])
    (read : ∀ content ∈ contents, ∀ heap offset, LiesAt heap offset (entry content) →
      read? heap offset = some content) :
    Serves (place isFirst entry) read? contents := by
  obtain ⟨-, -, -, entries⟩ := addAll_spec (holds_empty entry) first contents
  have reads : ∀ p ∈ contents.zip (addAll (place isFirst entry) {} contents).1,
      read? (addAll (place isFirst entry) {} contents).2.data.toList p.2 = some p.1 :=
    fun p hp => read p.1 (List.of_mem_zip hp).1 _ _ (List.forall₂_zip entries hp).1
  refine ⟨?reads, fun p hp q hq => ⟨fun same => ?_, fun same => ?_⟩, ?stays⟩
  case reads =>
    refine List.forall₂_iff_zip.2 ⟨entries.length_eq, fun {content offset} hp => ⟨?_, reads _ hp⟩⟩
    obtain ⟨front, back, all, rfl⟩ := (List.forall₂_zip entries hp).1
    have inside := List.length_pos_iff.2 (filled content)
    rw [← Array.length_toList, all, List.length_append, List.length_append]
    omega
  · -- Both are found, and the heap finds one offset for a content.
    have here := (List.forall₂_zip entries hp).2.place_eq entry
    have there := (List.forall₂_zip entries hq).2.place_eq entry
    rw [same, there] at here
    exact (Prod.mk.inj here).1.symm
  · have here := reads p hp
    rw [same, reads q hq] at here
    exact (Option.some.inj here).symm
  case stays =>
    rintro before later rfl
    obtain ⟨holds, -⟩ := addAll_spec (holds_empty entry) first before
    obtain ⟨-, grows, -⟩ := addAll_spec holds first later
    rw [addAll_append]
    exact ⟨List.prefix_append _ _, grows⟩

end Heap

/-! ### The heaps of an image -/

/-- The entry of a literal has a byte. -/
theorem LiteralHeap.entry_ne_nil (s : String) : entry s ≠ [] := BlobHeap.entry_ne_nil (content s)

/-- **Heaps can be read.**  Whatever is added to a new heap one after the other, every offset leads
to its content in the finished heap, equal contents have equal offsets and others have others, and
nothing that was there changes: for names without NUL, for literals, whose last byte is read as
well, and for blobs, as long as their lengths have a compressed form. -/
theorem Heap.addAll_decodable :
    (∀ names : List String, (∀ s ∈ names, '\x00' ∉ s.toList) →
      Serves NameHeap.add NameHeap.name? names) ∧
    (∀ literals : List String, (∀ s ∈ literals, (LiteralHeap.content s).length < 0x20000000) →
      Serves LiteralHeap.add LiteralHeap.text? literals) ∧
    ∀ blobs : List Bytes, (∀ blob ∈ blobs, blob.length < 0x20000000) →
      Serves BlobHeap.add BlobHeap.blob? blobs := by
  refine ⟨fun names text => ?names, fun literals short => ?literals, fun blobs short => ?blobs⟩
  case names =>
    exact serves_place String.isEmpty NameHeap.entry_of_isEmpty NameHeap.entry_ne_nil
      fun s hs _ _ lies => NameHeap.name?_of_liesAt lies (text s hs)
  case literals =>
    exact serves_place (fun _ => false) (fun s empty => by cases empty) LiteralHeap.entry_ne_nil
      fun s hs _ _ lies => LiteralHeap.text?_of_liesAt lies (short s hs)
  case blobs =>
    exact serves_place List.isEmpty BlobHeap.entry_of_isEmpty BlobHeap.entry_ne_nil
      fun blob hb _ _ lies => BlobHeap.blob?_of_liesAt lies (short blob hb)

/-- The hypotheses are satisfiable: names with an accent and the empty one, a literal that takes two
surrogates twice, and a blob whose length takes two bytes.  The empty name and the empty blob lie at
zero, and the literal has one entry. -/
theorem Heap.addAll_decodable_clef :
    (Serves NameHeap.add NameHeap.name? ["Caf\u00e9", "", "Hook"] ∧
      (addAll NameHeap.add {} ["Caf\u00e9", "", "Hook"]).1 = [1, 0, 7]) ∧
    (Serves LiteralHeap.add LiteralHeap.text? ["𝄞", "", "𝄞"] ∧
      (addAll LiteralHeap.add {} ["𝄞", "", "𝄞"]).1 = [1, 7, 1]) ∧
    Serves BlobHeap.add BlobHeap.blob? [[0x20, 0, 1], List.replicate 200 7, []] ∧
      (addAll BlobHeap.add {} [[0x20, 0, 1], List.replicate 200 7, []]).1 = [1, 5, 0] := by
  obtain ⟨names, literals, blobs⟩ := addAll_decodable
  refine ⟨⟨names _ (by decide), by cbv⟩, ⟨literals _ (by decide), by cbv⟩, blobs _ ?_, by cbv⟩
  rw [List.forall_mem_cons, List.forall_mem_cons, List.forall_mem_singleton, List.length_replicate]
  decide

end HookImage
