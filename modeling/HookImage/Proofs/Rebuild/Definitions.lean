/-
# What definitions share

No two containers of a reconstruction stand for one type, and no two methods of a container are made
of one piece that interceptions call for.  Their names tell less.  The number of its parameters is
left off the name of a type, so types that differ in nothing else have containers of one name
(`Placement.Homonyms`).  Copies are named after the target, not after what they copy, and numbered
for each mechanism on its own, so a redirect and a native jump of one target give one name, and so
may targets of one name, overloads of a method above all (`Reconstruction.Source.Clash`).

Methods of one name are doubles exactly if their signatures are one besides.  An import determines
the signature, so that depends on what is copied (`Reconstruction.Source.Agree`): clones of overloads
have one signature only if a receiver stands for a parameter, copies may have, and stubs always do.

Nothing else gives one name or one signature to two definitions
(`Snapshot.reconstruct_definitions`).
-/

import Mathlib
import HookImage.Proofs.Import.Sites
import HookImage.Proofs.Rebuild.NamedTypes

namespace HookImage

/-! ### Names of copies -/

namespace Synthesis

variable {view : HostView} {ctx : Context} {target : MethodInfo} {r r' : Interception} {k l : Nat}

/-- Whether the method that replaces a target is copied, and no stub stands in for it. -/
def isCopied (view : HostView) (r : Interception) : Bool :=
  match replacement? view r with
  | none => false
  | some (m, _) => (staticSignature view m).isOk

/-- What is added to the name of a target for a copy or a stub. -/
def suffix (view : HostView) (index : Nat) (r : Interception) : String :=
  "_" ++ toString index ++ if isCopied view r then "" else "_STUB_NULLTARGET"

/-- A copied replacement has the name of the target and its number. -/
theorem copy_of_isCopied (h : isCopied ctx.view r = true) (target : MethodInfo) (index : Nat) :
    (copy ctx target index r).1.name = s!"{target.name}_{index}" := by
  rcases found : replacement? ctx.view r with _ | ⟨m, body⟩
  · rw [isCopied, found] at h
    cases h
  · rcases signed : staticSignature ctx.view m with e | signature
    · simp only [isCopied, found, signed] at h
      cases h
    · simp only [copy, found, signed]

/-- A replacement that is not copied has a name that tells so. -/
theorem copy_of_not_isCopied (h : isCopied ctx.view r = false) (target : MethodInfo) (index : Nat) :
    (copy ctx target index r).1.name = s!"{target.name}_{index}" ++ "_STUB_NULLTARGET" := by
  rcases found : replacement? ctx.view r with _ | ⟨m, body⟩
  · simp only [copy, found]
    rfl
  · rcases signed : staticSignature ctx.view m with e | signature
    · simp only [copy, found, signed]
      rfl
    · simp only [isCopied, found, signed] at h
      cases h

/-- The name of a copy is that of its target with a suffix. -/
@[simp] theorem name_copy (ctx : Context) (target : MethodInfo) (index : Nat) (r : Interception) :
    (copy ctx target index r).1.name = target.name ++ suffix ctx.view index r := by
  have numbered : s!"{target.name}_{index}" = target.name ++ ("_" ++ toString index) :=
    String.append_assoc
  rw [suffix, ← String.append_assoc, ← numbered]
  cases copied : isCopied ctx.view r with
  | true => simpa using copy_of_isCopied copied target index
  | false => simpa using copy_of_not_isCopied copied target index

/-- No number ends like a stub. -/
theorem toString_ne_stub (k l : Nat) : toString k ≠ toString l ++ "_STUB_NULLTARGET" := by
  intro same
  have underscore : '_' ∈ (toString k).toList := by
    rw [same, String.toList_append]
    exact List.mem_append_right _ (by decide)
  rw [Nat.toString_eq_ofList_toDigits, String.toList_ofList] at underscore
  exact Nat.underscore_not_in_toDigits underscore

/-- The suffix of a copy tells its number and whether there was something to copy. -/
theorem suffix_inj :
    suffix view k r = suffix view l r' ↔ k = l ∧ isCopied view r = isCopied view r' := by
  constructor
  · intro same
    unfold suffix at same
    rw [String.append_assoc, String.append_assoc, String.append_right_inj] at same
    cases copied : isCopied view r <;> cases copied' : isCopied view r' <;>
      simp only [copied, copied', if_true, Bool.false_eq_true, if_false, String.append_empty] at same
    · exact ⟨Nat.repr_injective ((String.append_left_inj _).1 same), rfl⟩
    · exact absurd same.symm (toString_ne_stub l k)
    · exact absurd same (toString_ne_stub k l)
    · exact ⟨Nat.repr_injective same, rfl⟩
  · rintro ⟨rfl, same⟩
    rw [suffix, suffix, same]

/-- A copy has another name than its target. -/
theorem suffix_ne_empty : suffix view k r ≠ "" := by
  intro same
  have lengths := congrArg String.length same
  rw [suffix, String.length_append, String.length_append] at lengths
  have underscore : "_".length = 1 := by decide
  have empty : "".length = 0 := by decide
  omega

/-! ### Signatures of copies -/

/-- The signature of a method as a static one, or the empty one if it has none. -/
def plainSignature (view : HostView) (m : MethodInfo) : MethodSig :=
  match staticSignature view m with
  | .ok (signature, _) => signature
  | .error _ => {}

/-- The signature of the method that replaces a target, or the empty one if a stub stands in. -/
def copiedSignature (view : HostView) (r : Interception) : MethodSig :=
  match replacement? view r with
  | none => {}
  | some (m, _) => plainSignature view m

/-- The signature of a copy is that of its replacement, or empty. -/
@[simp]
theorem signature_copy (ctx : Context) (target : MethodInfo) (index : Nat) (r : Interception) :
    (copy ctx target index r).1.signature = copiedSignature ctx.view r := by
  rcases found : replacement? ctx.view r with _ | ⟨m, body⟩
  · simp only [copy, copiedSignature, found]
    rfl
  · rcases signed : staticSignature ctx.view m with e | ⟨signature, paramNames⟩
    · simp only [copy, copiedSignature, plainSignature, found, signed]
      rfl
    · simp only [copy, copiedSignature, plainSignature, found, signed]

/-- What is not copied has the empty signature. -/
theorem copiedSignature_of_not_isCopied (h : isCopied view r = false) :
    copiedSignature view r = {} := by
  rcases found : replacement? view r with _ | ⟨m, body⟩
  · simp only [copiedSignature, found]
  · rcases signed : staticSignature view m with e | signature
    · simp only [copiedSignature, plainSignature, found, signed]
    · simp only [isCopied, found, signed] at h
      cases h

end Synthesis

/-! ### Names under an import -/

namespace Importer

variable {view : HostView} {st st' : ImportState} {m m' : SyntheticMethod} {n : Nat}

/-- An import keeps the name of a method, and the signature of a stub. -/
theorem synthetic_keeps (run : (synthetic view m).run st = ((m', n), st')) :
    m'.name = m.name ∧ (m.signature = {} → m'.signature = {}) := by
  obtain ⟨name, k, st₁, -, attempted⟩ := synthetic_attempts run (.refl _)
  refine ⟨name, fun plain => ?_⟩
  rw [plain] at attempted
  exact (congrArg (·.1.1) attempted).symm

end Importer

namespace Reconstruction

variable {view : HostView} {options : Options} {groups : List (MethodId × List Interception)}
  {records : List Interception} {target target' : MethodInfo} {p q : Piece} {a b : Source}

/-! ### Names and signatures of pieces -/

/-- What a piece adds to the name of the target. -/
def Piece.suffix (view : HostView) : Piece → String
  | .copy index r => Synthesis.suffix view index r
  | .clone => ""

/-- Whether a piece is a copy that a stub stands in for. -/
def Piece.IsStub (view : HostView) : Piece → Prop
  | .copy _ r => Synthesis.isCopied view r = false
  | .clone => False

/-- The signature of a piece before its import: that of the method that is copied, or that of the
target. -/
def Piece.signature (view : HostView) (target : MethodInfo) : Piece → MethodSig
  | .copy _ r => Synthesis.copiedSignature view r
  | .clone => Synthesis.plainSignature view target

/-- A stub has the empty signature. -/
theorem Piece.signature_of_isStub (stub : p.IsStub view) : p.signature view target = {} := by
  cases p with
  | copy index r => exact Synthesis.copiedSignature_of_not_isCopied stub
  | clone => exact stub.elim

/-- **What a piece becomes has the name of the target with a suffix, and the signature of the
piece.** -/
theorem Piece.Gives.name_signature {bucket : Bucket} {m : SyntheticMethod}
    (known : view.method bucket.target = some target) (h : p.Gives view options target bucket m) :
    m.name = target.name ++ p.suffix view ∧ m.signature = p.signature view target := by
  cases h with
  | copy index r =>
    exact ⟨Synthesis.name_copy ⟨view, options.patchEngine⟩ target index r,
      Synthesis.signature_copy ⟨view, options.patchEngine⟩ target index r⟩
  | clone cloned =>
    obtain ⟨-, m, original, signature, paramNames, known', -, signed, rfl, -⟩ :=
      Synthesis.clone_eq_ok.1 cloned
    cases known.symm.trans known'
    refine ⟨String.append_empty.symm, ?_⟩
    simp only [Piece.signature, Synthesis.plainSignature, signed]

/-- Copies are numbered by their places. -/
theorem Piece.getElem?_copies {i : Nat} (h : (Piece.copies records)[i]? = some p) :
    ∃ r ∈ records, p = .copy i r := by
  rw [Piece.copies, List.getElem?_map, List.getElem?_zipIdx] at h
  obtain ⟨_, found, rfl⟩ := Option.map_eq_some_iff.1 h
  obtain ⟨r, here, rfl⟩ := Option.map_eq_some_iff.1 found
  exact ⟨r, List.mem_reverse.1 (List.mem_of_getElem? here), by rw [Nat.zero_add]⟩

/-- The interceptions of a mechanism, as far as they are copied. -/
def copied (options : Options) (records : List Interception) (tag : KindTag) : List Interception :=
  if options.copyReplacements then Bucket.ofTag records tag else []

/-- The copies of a mechanism are of interceptions of it. -/
theorem tag_of_mem_copied {tag : KindTag} {r : Interception} (h : r ∈ copied options records tag) :
    r.kind.tag = tag := by
  unfold copied at h
  split at h
  · exact eq_of_beq (List.mem_filter.1 h).2
  · cases h

/-- The pieces are the copies of redirects, those of native jumps, and a clone if there are
transformations. -/
theorem pieces_eq (options : Options) (records : List Interception) : pieces options records =
    Piece.copies (copied options records .redirect) ++
      (Piece.copies (copied options records .native) ++
        if records.any (·.kind.tag == .transform) then [.clone] else []) := by
  unfold pieces copied
  rw [← List.append_assoc]
  split <;> rfl

/-- **Which piece stands where**: copies for redirects first, then copies for native jumps, each kind
numbered from zero, and the clone last. -/
theorem pieces_cases {i : Nat} (h : (pieces options records)[i]? = some p) :
    (∃ r, r.kind.tag = .redirect ∧ p = .copy i r ∧
        i < (copied options records .redirect).length) ∨
      (∃ r n, r.kind.tag = .native ∧ p = .copy n r ∧
        i = (copied options records .redirect).length + n) ∨
      p = .clone ∧ i + 1 = (pieces options records).length := by
  have bound := (List.getElem?_eq_some_iff.1 h).1
  rw [pieces_eq, List.getElem?_append] at h
  split at h
  · rename_i early
    obtain ⟨r, hr, rfl⟩ := Piece.getElem?_copies h
    rw [Piece.length_copies] at early
    exact .inl ⟨r, tag_of_mem_copied hr, rfl, early⟩
  rename_i late
  rw [List.getElem?_append] at h
  split at h
  · obtain ⟨r, hr, rfl⟩ := Piece.getElem?_copies h
    rw [Piece.length_copies] at late ⊢
    exact .inr (.inl ⟨r, _, tag_of_mem_copied hr, rfl, by omega⟩)
  rename_i later
  refine .inr (.inr ?_)
  have length := congrArg List.length (pieces_eq options records)
  rw [List.length_append, List.length_append] at length
  split at h
  · rename_i transformed
    have last := (List.getElem?_eq_some_iff.1 h).1
    rw [List.length_singleton] at last
    rw [if_pos transformed, List.length_singleton] at length
    refine ⟨List.mem_singleton.1 (List.mem_of_getElem? h), ?_⟩
    omega
  · cases h

/-- **When two pieces of one target add the same to its name**: they are copies for a redirect and
for a native jump under the same number, and both or neither of them are stubs. -/
theorem suffix_eq_iff {i j : Nat} (less : i < j) (hi : (pieces options records)[i]? = some p)
    (hj : (pieces options records)[j]? = some q) : p.suffix view = q.suffix view ↔
      ∃ k r r', p = .copy k r ∧ q = .copy k r' ∧ r.kind.tag = .redirect ∧ r'.kind.tag = .native ∧
        Synthesis.isCopied view r = Synthesis.isCopied view r' := by
  have bound := (List.getElem?_eq_some_iff.1 hj).1
  constructor
  · intro same
    rcases pieces_cases hi with ⟨r, redirect, rfl, _⟩ | ⟨r, k, _, rfl, rfl⟩ | ⟨_, last⟩
    · rcases pieces_cases hj with ⟨r', _, rfl, _⟩ | ⟨r', k, native, rfl, rfl⟩ | ⟨rfl, _⟩
      · exact absurd (Synthesis.suffix_inj.1 same).1 (Nat.ne_of_lt less)
      · obtain ⟨rfl, alike⟩ := Synthesis.suffix_inj.1 same
        exact ⟨_, r, r', rfl, rfl, redirect, native, alike⟩
      · exact absurd same Synthesis.suffix_ne_empty
    · rcases pieces_cases hj with ⟨r', _, rfl, early⟩ | ⟨r', l, _, rfl, rfl⟩ | ⟨rfl, _⟩
      · omega
      · have number := (Synthesis.suffix_inj.1 same).1
        omega
      · exact absurd same Synthesis.suffix_ne_empty
    · omega
  · rintro ⟨k, r, r', rfl, rfl, -, -, alike⟩
    exact Synthesis.suffix_inj.2 ⟨rfl, alike⟩

/-! ### Names and signatures of methods -/

/-- Whether a source calls for a piece of a target. -/
def Source.CallsFor (view : HostView) (options : Options)
    (groups : List (MethodId × List Interception)) (a : Source) (target : MethodInfo) (p : Piece) :
    Prop :=
  ∃ group, groups[a.turn]? = some group ∧ view.method group.1 = some target ∧
    (pieces options group.2)[a.place]? = some p

/-- Whether two sources give methods the same name. -/
inductive Source.Clash (view : HostView) (options : Options)
    (groups : List (MethodId × List Interception)) (a b : Source) : Prop
  /-- The one is a copy for a redirect of a target, the other the copy under the same number for a
  native jump of it, and both or neither of them are stubs. -/
  | within {target : MethodInfo} {k : Nat} {r r' : Interception} (turn : a.turn = b.turn)
    (first : a.CallsFor view options groups target (.copy k r))
    (second : b.CallsFor view options groups target (.copy k r'))
    (redirect : r.kind.tag = .redirect) (native : r'.kind.tag = .native)
    (alike : Synthesis.isCopied view r = Synthesis.isCopied view r') :
    Clash view options groups a b
  /-- The names of two targets are the same, or become so by what is added to them. -/
  | between {target target' : MethodInfo} {p q : Piece} (turns : a.turn ≠ b.turn)
    (first : a.CallsFor view options groups target p)
    (second : b.CallsFor view options groups target' q)
    (names : target.name ++ p.suffix view = target'.name ++ q.suffix view) :
    Clash view options groups a b

/-- Whether a method has the name and the signature that a piece of a target gets in an image with a
symbol table. -/
structure Piece.Declares (view : HostView) (s : SymbolTable) (target : MethodInfo) (p : Piece)
    (m : SyntheticMethod) : Prop where
  name : m.name = target.name ++ p.suffix view
  /-- All stubs have one signature. -/
  stub : p.IsStub view → m.signature = {}
  /-- The other signatures have type rows in place of names. -/
  signature : s.Small → (p.signature view target).Alike (Importer.Settles view s) m.signature

/-- What a source makes of a type: a method of the container for it, named after a target that the
type declares. -/
def Source.Defines (view : HostView) (options : Options)
    (groups : List (MethodId × List Interception)) (s : SymbolTable) (home : TypeId) (a : Source)
    (m : SyntheticMethod) : Prop :=
  ∃ target p, a.CallsFor view options groups target p ∧ target.DeclaredIn view home ∧
    p.Declares view s target m

/-- Whether two sources give methods the same signature: what they call for has signatures of one
form, with names in the same places that an import settles as one. -/
def Source.Agree (view : HostView) (options : Options)
    (groups : List (MethodId × List Interception)) (s : SymbolTable) (a b : Source) : Prop :=
  ∃ target target' p q, a.CallsFor view options groups target p ∧
    b.CallsFor view options groups target' q ∧
    (p.signature view target).Alike (Relation.Join (Importer.Settles view s))
      (q.signature view target')

/-- A source calls for one piece of one target. -/
theorem Source.CallsFor.unique (h : a.CallsFor view options groups target p)
    (h' : a.CallsFor view options groups target' q) : target = target' ∧ p = q := by
  obtain ⟨group, turn, known, place⟩ := h
  obtain ⟨group', turn', known', place'⟩ := h'
  cases turn.symm.trans turn'
  cases known.symm.trans known'
  cases place.symm.trans place'
  exact ⟨rfl, rfl⟩

/-- **Two sources give the same name exactly if they clash.** -/
theorem Source.clash_iff (before : a.Before b) (first : a.CallsFor view options groups target p)
    (second : b.CallsFor view options groups target' q) :
    target.name ++ p.suffix view = target'.name ++ q.suffix view ↔
      a.Clash view options groups b := by
  rcases before with less | ⟨turn, less⟩
  · constructor
    · exact .between (Nat.ne_of_lt less) first second
    · intro clash
      cases clash with
      | within turn => exact absurd turn (Nat.ne_of_lt less)
      | between _ first' second' names =>
        obtain ⟨rfl, rfl⟩ := first.unique first'
        obtain ⟨rfl, rfl⟩ := second.unique second'
        exact names
  · obtain ⟨group, turn₁, known, place⟩ := id first
    obtain ⟨group', turn₂, known', place'⟩ := id second
    rw [turn] at turn₁
    cases turn₁.symm.trans turn₂
    cases known.symm.trans known'
    rw [String.append_right_inj, suffix_eq_iff less place place']
    constructor
    · rintro ⟨k, r, r', rfl, rfl, redirect, native, alike⟩
      exact .within turn first second redirect native alike
    · intro clash
      cases clash with
      | within _ first' second' redirect native alike =>
        obtain ⟨-, rfl⟩ := first.unique first'
        obtain ⟨-, rfl⟩ := second.unique second'
        exact ⟨_, _, _, rfl, rfl, redirect, native, alike⟩
      | between turns => exact absurd turn turns

/-- **Two sources give the same signature exactly if they agree.** -/
theorem Source.agree_iff {s : SymbolTable} {m m' : SyntheticMethod} (small : s.Small)
    (first : a.CallsFor view options groups target p)
    (second : b.CallsFor view options groups target' q) (made : p.Declares view s target m)
    (made' : q.Declares view s target' m') :
    m.signature = m'.signature ↔ a.Agree view options groups s b := by
  rw [(made.signature small).eq_iff Importer.settles_unique (made'.signature small)]
  constructor
  · exact fun alike => ⟨target, target', p, q, first, second, alike⟩
  · rintro ⟨_, _, _, _, first', second', alike⟩
    obtain ⟨rfl, rfl⟩ := first.unique first'
    obtain ⟨rfl, rfl⟩ := second.unique second'
    exact alike

/-- What a source gives is the definition that it calls for. -/
theorem Source.Yields.defines {s : SymbolTable} {m' : SyntheticMethod} {home : TypeId}
    (h : a.Yields view options groups s m') (serves : a.Serves view groups home)
    (resolved : ∀ h ∈ m'.typeHandles, ∃ t, h = .token t) :
    a.Defines view options groups s home m' := by
  obtain ⟨group, target, p, m, turn, known, place, gives, st, failures, st', run, reach⟩ := h
  obtain ⟨group', target', turn', known', declared⟩ := serves
  cases turn.symm.trans turn'
  cases known.symm.trans known'
  obtain ⟨name, signature⟩ := gives.name_signature known
  obtain ⟨kept, plain⟩ := Importer.synthetic_keeps run
  refine ⟨target, p, ⟨group, turn, known, place⟩, declared, kept.trans name, ?_, fun small => ?_⟩
  · exact fun stub => plain (signature.trans (Piece.signature_of_isStub stub))
  · rw [← signature]
    exact Importer.synthetic_settles run reach small fun h hh =>
      resolved h (List.mem_append_left _ hh)

/-- **The methods of a container are named after targets of its type.**  Two of them have one name
exactly if their sources clash, and one signature exactly if their sources agree. -/
theorem Ascends.definitions {s : SymbolTable} {home : TypeId} {ms : List SyntheticMethod}
    (h : Ascends view options groups s home ms)
    (resolved : ∀ m ∈ ms, ∀ h ∈ m.typeHandles, ∃ t, h = .token t) :
    ∃ entries : List (Source × SyntheticMethod), entries.map Prod.snd = ms ∧
      (∀ e ∈ entries, e.1.Defines view options groups s home e.2) ∧
      entries.Pairwise fun e f =>
        e.1.Before f.1 ∧ (e.2.name = f.2.name ↔ e.1.Clash view options groups f.1) ∧
          (s.Small → (e.2.signature = f.2.signature ↔ e.1.Agree view options groups s f.1)) := by
  obtain ⟨sources, yields, ascending, serves⟩ := h
  have length := yields.length_eq
  have defines : ∀ e ∈ sources.zip ms, e.1.Defines view options groups s home e.2 := fun e he =>
    ((List.forall₂_iff_zip.1 yields).2 he).defines (serves e.1 (List.of_mem_zip he).1)
      (resolved e.2 (List.of_mem_zip he).2)
  refine ⟨sources.zip ms, List.map_snd_zip (Nat.le_of_eq length.symm), defines, ?_⟩
  rw [← List.map_fst_zip (Nat.le_of_eq length), List.pairwise_map] at ascending
  refine ascending.imp_of_mem fun {e f} he hf before => ⟨before, ?_⟩
  obtain ⟨target, p, first, -, made⟩ := defines e he
  obtain ⟨target', q, second, -, made'⟩ := defines f hf
  refine ⟨?_, fun small => Source.agree_iff small first second made made'⟩
  rw [made.name, made'.name]
  exact Source.clash_iff before first second

/-! ### Containers -/

section Containers

open Placement

/-- A placement that is right about its containers knows only such that are there. -/
theorem founded_of_housed {p : Placement} {image : Image} (housed : Housed view p image) :
    p.Founded image := fun t id cached => (housed.forest.found t id).1 cached

/-- A turn leaves containers as they are, or adds those that are missing for its target. -/
theorem processTarget_housed (own : OwnNumbers view) {r : Reconstruction}
    (housed : Housed view r.placement r.image) (group : MethodId × List Interception) :
    Housed view (r.processTarget view options group).placement
      (r.processTarget view options group).image := by
  obtain ⟨notes, result, fate, -, run⟩ := processTarget_fate view options r group
  rw [run]
  cases fate with
  | unknown _ _ | idle _ _ _ | homeless _ _ _ | outside _ _ _ _ => exact housed
  | placed _ _ _ _ placing =>
    obtain ⟨same, outline, roots, -⟩ := placed_gains (founded_of_housed housed) placing
      (made view options _ _) r.diagnostics (r.targets + 1) notes
    rw [same]
    exact (housed.container own placing).of_outline outline roots

/-- A reconstruction starts with a placement that is right about its containers. -/
theorem start_housed {r : Reconstruction} (h : start view options = .ok r) :
    Housed view r.placement r.image := by
  obtain ⟨image, created, h⟩ := bind_eq_ok.1 h
  cases h
  obtain ⟨empty, rootless⟩ := Image.empty_create created
  exact housed_empty empty rootless options.rootNamespace

/-- **Turns leave one container for each type**, called after it. -/
theorem process_housed (own : OwnNumbers view) (options : Options) {r : Reconstruction}
    (housed : Housed view r.placement r.image) (s : Snapshot) :
    Housed view (r.process view options s).placement (r.process view options s).image :=
  List.foldlRecOn (motive := fun r : Reconstruction => Housed view r.placement r.image) s.groups _
    housed fun _ kept group _ => processTarget_housed own kept group

/-- Validation leaves containers as they are. -/
@[simp]
theorem outline_sweep (image : Image) : (Validity.sweep image).1.outline = image.outline := by
  rw [Validity.sweep_eq]
  exact List.map_map.trans (congrArg (List.map · _) rfl)

end Containers

end Reconstruction

namespace Placement

/-- Two containers of an image stand for two types, and have one name in one place exactly if the
types do. -/
theorem Housed.pairwise {view : HostView} {p : Placement} {image : Image}
    (h : Housed view p image) (own : OwnNumbers view) :
    image.containers.Pairwise fun c d => ∃ t u, view.type c.standsFor = some t ∧
      view.type d.standsFor = some u ∧ t.id ≠ u.id ∧
        (c.parent = d.parent ∧ c.nspace = d.nspace ∧ c.name = d.name ↔ Homonyms view t u) := by
  have distinct := List.pairwise_map.1 h.forest.distinct
  refine distinct.imp_of_mem fun {c d} hc hd other => ?_
  obtain ⟨t, type, -⟩ := h.mirrors c hc
  obtain ⟨u, type', -⟩ := h.mirrors d hd
  refine ⟨t, u, type, type', ?_, h.homonyms_iff own hc hd type type'⟩
  rwa [own _ t type, own _ u type']

end Placement

namespace Snapshot

open Placement Reconstruction

variable {view : HostView} {options : Options} {s : Snapshot} {report : Report}

/-- **A reconstruction ends with every container where its type belongs.** -/
theorem reconstruct_housed (own : OwnNumbers view) (h : s.reconstruct view options = .ok report) :
    ∃ p, Housed view p report.image := by
  obtain ⟨first, started, h⟩ := bind_eq_ok.1 h
  cases h
  have housed := process_housed own options (start_housed started) s
  refine ⟨_, housed.of_outline (outline_sweep _) ?_⟩
  rw [finish, Validity.sweep_eq]

/-- **What definitions share.**  Two containers stand for two types, and have one name in one place
exactly if the types do, up to the numbers of their parameters.  Every method of a container is
named after a target that its type declares.  No two of them have one source.  Two have one name
exactly if their sources clash: they are copies for a redirect and a native jump of one target under
one number, or the names of two targets come to the same.  They have one signature exactly if what
they copy does, up to names that an import settles as one; all stubs have the empty signature. -/
theorem reconstruct_definitions (own : OwnNumbers view)
    (h : s.reconstruct view options = .ok report) :
    (report.image.containers.Pairwise fun c d => ∃ t u, view.type c.standsFor = some t ∧
      view.type d.standsFor = some u ∧ t.id ≠ u.id ∧
        (c.parent = d.parent ∧ c.nspace = d.nspace ∧ c.name = d.name ↔ Homonyms view t u)) ∧
    ∀ c ∈ report.image.containers, ∃ entries : List (Source × SyntheticMethod),
      entries.map Prod.snd = c.methods ∧
      (∀ e ∈ entries,
        e.1.Defines view options s.groups report.image.symbols c.standsFor e.2) ∧
      entries.Pairwise fun e f =>
        e.1.Before f.1 ∧ (e.2.name = f.2.name ↔ e.1.Clash view options s.groups f.1) ∧
          (report.image.symbols.Small → (e.2.signature = f.2.signature ↔
            e.1.Agree view options s.groups report.image.symbols f.1)) := by
  obtain ⟨p, housed⟩ := reconstruct_housed own h
  refine ⟨housed.pairwise own, fun c hc => ?_⟩
  exact (reconstruct_sourced h c hc).definitions fun m hm => reconstruct_resolved h c hc m hm

/-- A process with two types that differ in the number of their parameters only, and with two
methods of one name in the first of them. -/
def listView : HostView where
  method id := [
    { id := ⟨1⟩, name := "Add", declaringType := some ⟨1⟩, signature := {} },
    { id := ⟨2⟩, name := "Add", declaringType := some ⟨1⟩,
      signature := { params := [.primitive .int32] } },
    { id := ⟨3⟩, name := "Add", declaringType := some ⟨2⟩, signature := {} }
    ].find? fun m : MethodInfo => m.id == id
  body _ := some (.ofCode [(.ret, .none)])
  type id := [
    { id := ⟨1⟩, module := some ⟨1⟩, nspace := "Game", name := "List\x601" },
    { id := ⟨2⟩, module := some ⟨1⟩, nspace := "Game", name := "List\x602" }
    ].find? fun t : TypeInfo => t.id == id
  module _ := none
  modules := []
  findType _ := none
  patches := none

/-- The interception of a method with nothing that is called instead. -/
def vacant (n : UInt64) (kind : InterceptionKind) : Interception where
  handle := ⟨n⟩
  target := some ⟨n⟩
  replacement := none
  kind := kind
  owner := none

/-- A redirect and a native jump of a method, and redirects of two others. -/
def vacantSnapshot : Snapshot where
  groups := [
    (⟨1⟩, [vacant 1 (.redirect none none), vacant 1 (.native ⟨0, 0, []⟩)]),
    (⟨2⟩, [vacant 2 (.redirect none none)]),
    (⟨3⟩, [vacant 3 (.redirect none none)])]

/-- What comes of them: two containers of one name, the first one with three stubs of one name. -/
theorem reconstruct_vacant : ∃ report c d m m' m'',
    vacantSnapshot.reconstruct listView {} = .ok report ∧ report.image.symbols.Small ∧
      report.image.containers = [c, d] ∧
      (c.parent = d.parent ∧ c.nspace = d.nspace ∧ c.name = d.name) ∧ c.methods = [m, m', m''] ∧
      (m.name = m'.name ∧ m.signature = m'.signature) ∧
      (m.name = m''.name ∧ m.signature = m''.signature) := by
  have facts : (match vacantSnapshot.reconstruct listView {} with
      | .ok report => (decide report.image.symbols.Small, report.image.containers.map fun c =>
        ((c.parent, c.nspace, c.name), c.methods.map fun m => (m.name, m.signature)))
      | .error _ => (false, [])) =
      (true, [((none, "Hook.Game", "List"), .replicate 3 ("Add_0_STUB_NULLTARGET", {})),
        ((none, "Hook.Game", "List"), .replicate 1 ("Add_0_STUB_NULLTARGET", {}))]) := by
    cbv
  split at facts
  · rename_i report h
    obtain ⟨small, facts⟩ := Prod.mk.inj facts
    obtain ⟨c, rest, containers, first, facts⟩ := List.map_eq_cons_iff.1 facts
    obtain ⟨d, rest, rfl, second, facts⟩ := List.map_eq_cons_iff.1 facts
    obtain rfl := List.map_eq_nil_iff.1 facts
    obtain ⟨place, stubs⟩ := Prod.mk.inj first
    obtain ⟨place', -⟩ := Prod.mk.inj second
    obtain ⟨m, rest, methods, stub, stubs⟩ := List.map_eq_cons_iff.1 stubs
    obtain ⟨m', rest, rfl, stub', stubs⟩ := List.map_eq_cons_iff.1 stubs
    obtain ⟨m'', rest, rfl, stub'', stubs⟩ := List.map_eq_cons_iff.1 stubs
    obtain rfl := List.map_eq_nil_iff.1 stubs
    refine ⟨report, c, d, m, m', m'', h, of_decide_eq_true small, containers, ?_, methods, ?_, ?_⟩
    · simpa using place.trans place'.symm
    · simpa using stub.trans stub'.symm
    · simpa using stub.trans stub''.symm
  · cases facts

/-- The types of the view have their own numbers. -/
theorem ownNumbers_listView : OwnNumbers listView := fun id t known => by
  have same := List.find?_some known
  exact eq_of_beq same

/-- The hypotheses are satisfiable: the two types come to one name, and the source of the first
method clashes and agrees with those of the two others. -/
theorem reconstruct_definitions_vacant : OwnNumbers listView ∧ ∃ report,
    vacantSnapshot.reconstruct listView {} = .ok report ∧
    (∃ t u, t.id ≠ u.id ∧ Homonyms listView t u) ∧
    ∃ a b b' : Source, a.Before b ∧ b.Before b' ∧
      (a.Clash listView {} vacantSnapshot.groups b ∧
        a.Agree listView {} vacantSnapshot.groups report.image.symbols b) ∧
      (a.Clash listView {} vacantSnapshot.groups b' ∧
        a.Agree listView {} vacantSnapshot.groups report.image.symbols b') := by
  refine ⟨ownNumbers_listView, ?_⟩
  obtain ⟨report, c, d, m, m', m'', h, small, containers, place, methods, same, same'⟩ :=
    reconstruct_vacant
  obtain ⟨apart, named⟩ := reconstruct_definitions ownNumbers_listView h
  rw [containers] at apart named
  refine ⟨report, h, ?_, ?_⟩
  · obtain ⟨t, u, -, -, other, exactly⟩ :=
      List.rel_of_pairwise_cons apart (List.mem_singleton_self d)
    exact ⟨t, u, other, exactly.1 place⟩
  · obtain ⟨entries, made, -, clashes⟩ := named c (List.mem_cons_self ..)
    rw [methods] at made
    obtain ⟨e, two, rfl, rfl, others⟩ := List.map_eq_cons_iff.1 made
    obtain ⟨f, one, rfl, rfl, last⟩ := List.map_eq_cons_iff.1 others
    obtain ⟨g, none, rfl, rfl, -⟩ := List.map_eq_cons_iff.1 last
    rw [List.pairwise_cons, List.pairwise_cons] at clashes
    obtain ⟨first, second, -⟩ := clashes
    obtain ⟨before, clash, agree⟩ := first f (List.mem_cons_self ..)
    obtain ⟨-, clash', agree'⟩ := first g (List.mem_cons_of_mem _ (List.mem_cons_self ..))
    exact ⟨e.1, f.1, g.1, before, (second g (List.mem_cons_self ..)).1,
      ⟨clash.1 same.1, (agree small).1 same.2⟩, clash'.1 same'.1, (agree' small).1 same'.2⟩

/-- **Definitions may be doubles.**  Of two containers neither the place nor the name need differ, and
of two methods of a container neither the name nor the signature. -/
theorem reconstruct_doubles : OwnNumbers listView ∧ ∃ report,
    vacantSnapshot.reconstruct listView {} = .ok report ∧
    (¬report.image.containers.Pairwise fun c d =>
      ¬(c.parent = d.parent ∧ c.nspace = d.nspace ∧ c.name = d.name)) ∧
    ∃ c ∈ report.image.containers, ¬c.methods.Pairwise fun m m' =>
      ¬(m.name = m'.name ∧ m.signature = m'.signature) := by
  obtain ⟨report, c, d, m, m', m'', h, -, containers, place, methods, same, -⟩ :=
    reconstruct_vacant
  refine ⟨ownNumbers_listView, report, h, fun apart => ?_, c, ?_, fun apart => ?_⟩
  · rw [containers] at apart
    exact List.rel_of_pairwise_cons apart (List.mem_singleton_self d) place
  · rw [containers]
    exact List.mem_cons_self ..
  · rw [methods] at apart
    exact List.rel_of_pairwise_cons apart (List.mem_cons_self ..) same

end Snapshot
end HookImage
