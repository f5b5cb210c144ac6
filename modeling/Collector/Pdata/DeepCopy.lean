import Collector.Pdata.CopyTrees
import Collector.Pdata.FiniteMap
import Collector.Pdata.Storage

/-!
# Deep copies of attributes

Copying in memory does what copying does on trees, `AnyValue.copyTo` of `Pdata.Attributes`: where
source and destination share no object and no object of the destination stands in it
twice, the two fail alike or both end, and then the destination stands for the tree that
was copied, on objects of its own (`Copies`). So an attribute map is a finite map as long as
the values that are copied into it are not its own (`finite_map`).
-/

namespace Collector.Pdata

open Lib (Matches)
open Lib.Memory (Rebuilds Changes has_of_read read_alloc_eq read_write_self read_write_ne
  read_write_of_nodup)
open List

variable {F : Type}

/-- **What a copy does**, for the source `v`: as on trees, and the destination is rebuilt. -/
structure Copies (copy : Storage F → Option Nat → Option Nat → Go (Storage F)) (v : AnyValue F) :
    Prop where
  matches_copyTo : ∀ {m : Storage F} {p : Option Nat} {S : List Place} {w : AnyValue F} {d : Nat}
    {D : List Place}, v.At m p S → w.At m (some d) D → S.Disjoint D → D.Nodup →
    Matches (fun r m' => ∃ D', r.At m' (some d) D' ∧ Rebuilds m D m' D') (v.copyTo w)
      (copy m p (some d))
  nil_on_nil : v = .nil → ∀ m, copy m none none = .error .nilDereference

variable {v : AnyValue F} {m : Storage F} {S : List Place}

/-- **The frame rule**: a copy into a part of what has been built. -/
theorem Copies.frame {copy : Storage F → Option Nat → Option Nat → Go (Storage F)} {w : AnyValue F}
    (h : Copies copy v) {m' : Storage F} {p : Option Nat} {a : Nat} {A B X : List Place}
    (hv : v.At m p S) (hX : S.Disjoint X) (hw : w.At m' (some a) A)
    (hm : Rebuilds m X m' (A ++ B)) :
    Matches (fun r m'' => ∃ A', r.At m'' (some a) A' ∧ Rebuilds m X m'' (A' ++ B) ∧
      ∀ x ∈ B, m''.read x = m'.read x) (v.copyTo w) (copy m' p (some a)) := by
  have hv' : v.At m' p S := hv.congr (hm.changes.read_of_disjoint hv.has hX)
  have hAB := hm.disjoint hv.has hX
  have hA : S.Disjoint A := fun x hxS hxA => hAB hxS (mem_append_left B hxA)
  obtain ⟨hnodup, -, hd⟩ := nodup_append'.1 hm.nodup
  have hB : ∀ x ∈ B, m'.Has x := fun x hx => hm.has x (mem_append_right A hx)
  refine (h.matches_copyTo hv' hw hA hnodup).mono ?_
  rintro r m'' ⟨A', hr, hA'⟩
  exact ⟨A', hr, hm.trans (hA'.frame hB hm.nodup),
    hA'.changes.read_of_disjoint hB (List.disjoint_comm.1 hd)⟩

namespace Storage

theorem get_some {k : Kind} {a : Nat} {c : Object F k}
    (h : m.read ⟨k, a⟩ = some c) : m.get k (some a) = .ok c := by
  show deref (m.read ⟨k, a⟩) = .ok c
  rw [h]
  rfl

theorem disjoint_nil (A : List Place) : A.Disjoint [] := fun _ _ h => absurd h not_mem_nil

theorem null_at_alloc {m' : Storage F} {a : Nat} (h : m.alloc .value .null = (m', a)) :
    AnyValue.null.At m' (some a) [⟨.value, a⟩] :=
  .plain (read_alloc_eq h) rfl

variable {copy : Storage F → Option Nat → Option Nat → Go (Storage F)}

/-! ## New entries and elements -/

variable {kvs : List (KeyValue F)} {es : List (Option Nat)}

theorem newEntries_matches
    (hcopy : ∀ k v, KeyValue.mk k v ∈ kvs → Copies copy v)
    (h : EntriesAt m kvs es S) :
    Matches (fun rs r => ∃ D, EntriesAt r.1 rs r.2 D ∧ Rebuilds m [] r.1 D)
      (Pdata.initFromAttributeMap kvs) (newEntries copy m es) := by
  induction kvs generalizing m es S with
  | nil =>
    cases h
    exact .ok ⟨[], .nil, .refl nodup_nil (by simp)⟩
  | cons kv kvs ih =>
    cases h with
    | skip hes => exact .error _
    | @cons e k p v es' _ T U he hv hes =>
      rw [Pdata.initFromAttributeMap, newEntries, get_some he]
      rcases hm₁ : m.alloc .value .null with ⟨m₁, a⟩
      show Matches _ _ (copy (m₁.alloc .entry ⟨k, some a⟩).1 p (some a) >>= fun m₃ =>
        newEntries copy m₃ es' >>= fun rest =>
          pure (rest.1, some (m₁.alloc .entry ⟨k, some a⟩).2 :: rest.2))
      rcases hm₂ : m₁.alloc .entry ⟨k, some a⟩ with ⟨m₂, b⟩
      have ha := Rebuilds.alloc_eq hm₁
      have hb := Rebuilds.alloc_eq hm₂
      have hab : Rebuilds m [] m₂ ([⟨.value, a⟩] ++ [⟨.entry, b⟩]) :=
        ha.append hb (by simp) nodup_nil
      have hnull := (null_at_alloc hm₁).congr (hb.changes.read_of_disjoint ha.has (disjoint_nil _))
      refine ((hcopy k v mem_cons_self).frame hv (disjoint_nil _) hnull hab).bind ?_
      rintro r m₃ ⟨D, hr, hD, hkept⟩
      have hU := hes.congr (hD.changes.read_of_disjoint hes.has (disjoint_nil _))
      refine (ih (fun k v hkv => hcopy k v (mem_cons_of_mem _ hkv)) hU).bind ?_
      rintro rs ⟨m₄, ws⟩ ⟨D₂, hrs, hD₂⟩
      have hrest := hD₂.changes.read_of_disjoint hD.has (disjoint_nil _)
      refine .ok ⟨⟨.entry, b⟩ :: (D ++ D₂), ?_, ?_⟩
      · have hread : m₄.read ⟨.entry, b⟩ = some ⟨k, some a⟩ := by
          rw [hrest _ (by simp), hkept _ mem_cons_self]
          exact read_alloc_eq hm₂
        exact .cons hread (hr.congr fun x hx => hrest x (mem_append_left _ hx)) hrs
      · refine (hD.append hD₂ (by simp) (by simp)).perm (.refl _) ?_
        rw [append_assoc]
        exact perm_middle

variable {vs : List (AnyValue F)} {els : List (Option Nat)} {dest : Nat}

theorem newElements_matches (hcopy : ∀ v ∈ vs, Copies copy v) (h : ElementsAt m vs els S) :
    Matches (fun rs r => ∃ D, ElementsAt r.1 rs r.2 D ∧ Rebuilds m [] r.1 D)
      (copyElements vs (List.replicate vs.length .null)) (newElements copy m els) := by
  induction vs generalizing m els S with
  | nil =>
    cases h
    exact .ok ⟨[], .nil, .refl nodup_nil (by simp)⟩
  | cons v vs ih =>
    obtain _ | ⟨hv, hps⟩ := h
    rw [copyElements, newElements, length_cons, replicate_succ, headD_cons,
      AnyValue.ready_null, tail_cons]
    rcases hm₁ : m.alloc .value .null with ⟨m₁, a⟩
    have ha : Rebuilds m [] m₁ ([⟨.value, a⟩] ++ []) := Rebuilds.alloc_eq hm₁
    refine ((hcopy v mem_cons_self).frame hv (disjoint_nil _) (null_at_alloc hm₁) ha).bind ?_
    rintro r m₂ ⟨D, hr, hD, -⟩
    rw [append_nil] at hD
    have hU := hps.congr (hD.changes.read_of_disjoint hps.has (disjoint_nil _))
    refine (ih (fun v hv => hcopy v (mem_cons_of_mem _ hv)) hU).bind ?_
    rintro rs ⟨m₃, ws⟩ ⟨D₂, hrs, hD₂⟩
    have hr' := hr.congr (hD₂.changes.read_of_disjoint hD.has (disjoint_nil _))
    exact .ok ⟨D ++ D₂, .cons hr' hrs, hD.append hD₂ (by simp) (by simp)⟩

/-! ## Reused elements -/

theorem copyToElement_matches {w : AnyValue F} (hcopy : Copies copy v) {el p : Option Nat}
    {T : List Place} {done ps : List (Option Nat)} (hv : v.At m el S)
    (hdest : m.read ⟨.elements, dest⟩ = some (done ++ p :: ps)) (hw : w.At m p T)
    (hS : S.Disjoint (⟨.elements, dest⟩ :: T)) (hT : (⟨.elements, dest⟩ :: T : List Place).Nodup) :
    Matches (fun r m' => ∃ q D, r.At m' q D ∧
      m'.read ⟨.elements, dest⟩ = some (done ++ q :: ps) ∧
      Rebuilds m (⟨.elements, dest⟩ :: T) m' (⟨.elements, dest⟩ :: D))
      (v.copyTo (v.ready w)) (copyToElement copy m el dest done.length) := by
  have hindex : index (done ++ p :: ps) done.length = .ok p := by simp [index]
  rw [copyToElement, get_some hdest]
  show Matches _ _ (index (done ++ p :: ps) done.length >>= _)
  rw [hindex]
  show Matches _ _ (if el.isSome ∧ p.isNone then _ else _)
  rcases hw.pointer with ⟨rfl, rfl, rfl⟩ | ⟨hne, d, rfl⟩
  · rcases hv.pointer with ⟨rfl, rfl, rfl⟩ | ⟨hne, b, rfl⟩
    · -- nil on nil
      rw [hcopy.nil_on_nil rfl]
      exact .error _
    · have hready : v.ready .nil = .null := by
        cases v <;> first | rfl | exact absurd rfl hne
      rw [hready]
      rcases hm₁ : m.alloc .value .null with ⟨m₁, a⟩
      have hset : (done ++ none :: ps).set done.length (some a) = done ++ some a :: ps := by simp
      show Matches _ _ (copy (m₁.write ⟨.elements, dest⟩ ((done ++ none :: ps).set done.length
        (some a))) (some b) (some a))
      rw [hset]
      have hhas : ∀ x ∈ [(⟨.elements, dest⟩ : Place)], m.Has x :=
        forall_mem_singleton.2 (has_of_read hdest)
      have hnew := Rebuilds.alloc_eq hm₁
      have h₁ : Rebuilds m [⟨.elements, dest⟩] m₁ [⟨.value, a⟩, ⟨.elements, dest⟩] :=
        hnew.frame hhas (nodup_singleton _)
      have hw₁ : Rebuilds m₁ [⟨.elements, dest⟩]
          (m₁.write ⟨.elements, dest⟩ (done ++ some a :: ps)) [⟨.elements, dest⟩] :=
        .write (h₁.has _ (by simp)) _
      have h₂ := h₁.trans (hw₁.frame_left hnew.has h₁.nodup)
      have hnull := (null_at_alloc hm₁).congr
        (hw₁.changes.read_of_disjoint hnew.has (by simp))
      refine (hcopy.frame hv hS hnull h₂).mono ?_
      rintro r m' ⟨D, hr, hD, hkept⟩
      refine ⟨some a, D, hr, ?_, hD.perm (.refl _) (perm_append_singleton _ _)⟩
      rw [hkept _ mem_cons_self]
      exact read_write_self (h₁.has _ (by simp)) _
  · have hready : v.ready w = w := by
      cases v <;> cases w <;> first | rfl | exact absurd rfl hne
    rw [if_neg (by simp), hready]
    have hhas : ∀ x ∈ (⟨.elements, dest⟩ :: T : List Place), m.Has x :=
      forall_mem_cons.2 ⟨has_of_read hdest, hw.has⟩
    have hm : Rebuilds m (⟨.elements, dest⟩ :: T) m (T ++ [⟨.elements, dest⟩]) :=
      (Rebuilds.refl hT hhas).perm (.refl _) (perm_append_singleton _ _).symm
    refine (hcopy.frame hv hS hw hm).mono ?_
    rintro r m' ⟨D, hr, hD, hkept⟩
    refine ⟨some d, D, hr, ?_, hD.perm (.refl _) (perm_append_singleton _ _)⟩
    rw [hkept _ mem_cons_self, hdest]

theorem rebuilds_parts {m₁ m₂ : Storage F} {x : Place} {T U T' U' : List Place}
    (h : Rebuilds m (x :: T) m₁ (x :: T')) (h' : Rebuilds m₁ (x :: U) m₂ (x :: U'))
    (hU : ∀ y ∈ U, m.Has y) (hnodup : (x :: (T ++ U)).Nodup) :
    Rebuilds m (x :: (T ++ U)) m₂ (x :: (T' ++ U')) ∧ T'.Disjoint (x :: U) := by
  have hframe : Rebuilds m (x :: (T ++ U)) m₁ (x :: T' ++ U) := h.frame hU hnodup
  have hmid : Rebuilds m (x :: (T ++ U)) m₁ (T' ++ x :: U) :=
    hframe.perm (.refl _) perm_middle.symm
  have hrest := h'.frame_left (fun y hy => h.has y (mem_cons_of_mem x hy)) hmid.nodup
  exact ⟨(hmid.trans hrest).perm (.refl _) perm_middle, (nodup_append'.1 hmid.nodup).2.2⟩

variable {D : List Place}

theorem reuseElements_matches {ws : List (AnyValue F)} (hcopy : ∀ v ∈ vs, Copies copy v)
    (hlen : ws.length = vs.length) {done ps : List (Option Nat)}
    (hvs : ElementsAt m vs els S) (hdest : m.read ⟨.elements, dest⟩ = some (done ++ ps))
    (hws : ElementsAt m ws ps D) (hS : S.Disjoint (⟨.elements, dest⟩ :: D))
    (hD : (⟨.elements, dest⟩ :: D : List Place).Nodup) :
    Matches (fun rs m' => ∃ qs D', m'.read ⟨.elements, dest⟩ = some (done ++ qs) ∧
      ElementsAt m' rs qs D' ∧ Rebuilds m (⟨.elements, dest⟩ :: D) m' (⟨.elements, dest⟩ :: D'))
      (copyElements vs ws) (reuseElements copy dest done.length m els) := by
  induction vs generalizing m ws els done ps S D with
  | nil =>
    obtain rfl := eq_nil_of_length_eq_zero hlen
    cases hvs
    cases hws
    exact .ok ⟨[], [], hdest, .nil,
      .refl hD (forall_mem_singleton.2 (has_of_read hdest))⟩
  | cons v vs ih =>
    obtain ⟨w, ws, rfl⟩ := exists_cons_of_length_eq_add_one hlen
    cases hvs with | @cons el _ els _ S₁ S₂ hv hvs =>
    cases hws with | @cons p _ ps _ T U hw hws =>
    obtain ⟨hS₁, hS₂⟩ := disjoint_append_left.1 hS
    have hsub : (⟨.elements, dest⟩ :: T : List Place).Sublist (⟨.elements, dest⟩ :: (T ++ U)) :=
      (sublist_append_left T U).cons_cons _
    have hsub' : (⟨.elements, dest⟩ :: U : List Place).Sublist (⟨.elements, dest⟩ :: (T ++ U)) :=
      (sublist_append_right T U).cons_cons _
    have hnodup : ((⟨.elements, dest⟩ :: T) ++ U).Nodup := hD
    have hTU : U.Disjoint (⟨.elements, dest⟩ :: T) :=
      List.disjoint_comm.1 (nodup_append'.1 hnodup).2.2
    refine (copyToElement_matches (hcopy v mem_cons_self) hv hdest hw
      (disjoint_of_subset_right hsub.subset hS₁) (hD.sublist hsub)).bind ?_
    rintro r m₁ ⟨q, D₁, hr, hread, hD₁⟩
    have hU := hws.congr (hD₁.changes.read_of_disjoint hws.has hTU)
    have hV := hvs.congr (hD₁.changes.read_of_disjoint hvs.has
      (disjoint_of_subset_right hsub.subset hS₂))
    have hread' : m₁.read ⟨.elements, dest⟩ = some ((done ++ [q]) ++ ps) := by
      rw [hread, append_assoc]
      rfl
    have hrest := ih (fun v hv => hcopy v (mem_cons_of_mem _ hv)) (Nat.succ.inj hlen) hV
      hread' hU (disjoint_of_subset_right hsub'.subset hS₂) (hD.sublist hsub')
    rw [length_append, length_singleton] at hrest
    refine Matches.bind_left hrest ?_
    rintro rs m₂ ⟨qs, D₂, hqs, hrs, hD₂⟩
    obtain ⟨hall, hd⟩ := rebuilds_parts hD₁ hD₂ hws.has hD
    rw [append_assoc] at hqs
    have hr₂ := hr.congr (hD₂.changes.read_of_disjoint hr.has hd)
    exact .ok ⟨q :: qs, D₁ ++ D₂, hqs, .cons hr₂ hrs, hall⟩

theorem copyArray_matches {ws : List (AnyValue F)} (hcopy : ∀ v ∈ vs, Copies copy v) {es : Nat}
    {old : List (Option Nat)} (hes : m.read ⟨.elements, es⟩ = some els)
    (hvs : ElementsAt m vs els S) (hdest : m.read ⟨.elements, dest⟩ = some old)
    (hws : ElementsAt m ws old D) (hS : S.Disjoint (⟨.elements, dest⟩ :: D))
    (hD : (⟨.elements, dest⟩ :: D : List Place).Nodup) :
    Matches (fun rs m' => ∃ qs D', m'.read ⟨.elements, dest⟩ = some qs ∧ ElementsAt m' rs qs D' ∧
      Rebuilds m (⟨.elements, dest⟩ :: D) m' (⟨.elements, dest⟩ :: D'))
      (copyElements vs ((AnyValue.array ws).room vs.length)) (copyArray copy m es dest) := by
  have hhas : ∀ x ∈ (⟨.elements, dest⟩ :: D : List Place), m.Has x :=
    forall_mem_cons.2 ⟨has_of_read hdest, hws.has⟩
  rw [copyArray, get_some hes]
  show Matches _ _ (if els.length = 0 then _ else _)
  by_cases hzero : els.length = 0
  · obtain rfl : vs = [] := eq_nil_of_length_eq_zero (hvs.length_eq.symm.trans hzero)
    rw [if_pos hzero]
    have hwrite := (Rebuilds.write (hhas _ mem_cons_self) ([] : List (Option Nat))).grow
      (B := ⟨.elements, dest⟩ :: D) (by simp)
    exact .ok ⟨[], [], read_write_self (hhas _ mem_cons_self) _, .nil, hwrite⟩
  rw [if_neg hzero, get_some hdest]
  show Matches _ _ (if els.length ≤ old.length then _ else _)
  by_cases hle : els.length ≤ old.length
  · -- the front of the old elements is reused
    have hle' : vs.length ≤ ws.length := by rw [← hvs.length_eq, ← hws.length_eq]; exact hle
    have hroom : (AnyValue.array ws).room vs.length = ws.take vs.length := if_pos hle'
    rw [if_pos hle, hroom, hvs.length_eq]
    obtain ⟨T, hT, hsub⟩ := hws.take vs.length
    have hsub' := hsub.cons_cons (⟨.elements, dest⟩ : Place)
    have hwrite : Rebuilds m (⟨.elements, dest⟩ :: D)
        (m.write ⟨.elements, dest⟩ (old.take vs.length)) (⟨.elements, dest⟩ :: T) :=
      (Rebuilds.write_frame _ hD hhas).drop hsub'
    have hT' := hT.congr (read_write_of_nodup (hD.sublist hsub') (old.take vs.length))
    have hvs' := hvs.congr (hwrite.changes.read_of_disjoint hvs.has hS)
    have hdest' : (m.write ⟨.elements, dest⟩ (old.take vs.length)).read ⟨.elements, dest⟩ =
        some ([] ++ old.take vs.length) :=
      read_write_self (hhas _ mem_cons_self) _
    have hlen : (ws.take vs.length).length = vs.length := by rw [length_take]; omega
    refine (reuseElements_matches hcopy hlen hvs' hdest' hT'
      (disjoint_of_subset_right hsub'.subset hS) (hD.sublist hsub')).mono ?_
    rintro rs m' ⟨qs, D', hqs, hrs, hD'⟩
    exact ⟨qs, D', hqs, hrs, hwrite.trans hD'⟩
  · -- all elements are new
    have hle' : ¬ vs.length ≤ ws.length := by rw [← hvs.length_eq, ← hws.length_eq]; exact hle
    have hroom : (AnyValue.array ws).room vs.length = List.replicate vs.length .null := if_neg hle'
    rw [if_neg hle, hroom]
    refine Matches.bind_right (newElements_matches hcopy hvs) ?_
    rintro rs ⟨m₁, qs⟩ ⟨D', hrs, hD'⟩
    obtain ⟨hreplace, hread, hkept⟩ := hD'.replace_kept (hhas _ mem_cons_self) qs
    exact .ok ⟨qs, D', hread, hrs.congr hkept, hreplace.grow (by simp)⟩

/-! ## Values -/

theorem initFromAttributeMap_matches
    (hcopy : ∀ k v, KeyValue.mk k v ∈ kvs → Copies copy v) {am attrMap : Nat}
    (hes : m.read ⟨.entries, attrMap⟩ = some es)
    (hkvs : EntriesAt m kvs es S) (ham : m.Has ⟨.entries, am⟩) :
    Matches (fun rs m' => ∃ ws D, m'.read ⟨.entries, am⟩ = some ws ∧ EntriesAt m' rs ws D ∧
      Rebuilds m [⟨.entries, am⟩] m' (⟨.entries, am⟩ :: D))
      (Pdata.initFromAttributeMap kvs) (initFromAttributeMap copy m am attrMap) := by
  rw [initFromAttributeMap, get_some hes]
  refine Matches.bind_right (newEntries_matches hcopy hkvs) ?_
  rintro rs ⟨m₁, ws⟩ ⟨D, hrs, hD⟩
  obtain ⟨hreplace, hread, hkept⟩ := hD.replace_kept ham ws
  exact .ok ⟨ws, D, hread, hrs.congr hkept, hreplace⟩

section Destination

variable {w : AnyValue F} {d : Nat} {D : List Place} (hw : w.At m (some d) D) (hD : D.Nodup)

variable (m d D) in
/-- The message at `d` stands for `r`, on what `D` was rebuilt into. -/
def BuiltAt (r : AnyValue F) (m' : Storage F) : Prop :=
  ∃ D', r.At m' (some d) D' ∧ Rebuilds m D m' D'

include hw

theorem At.ne_nil : w ≠ .nil := by
  rintro rfl
  rcases hw.pointer with ⟨-, h, -⟩ | ⟨h, -⟩
  · cases h
  · exact h rfl

theorem At.mem_value : ⟨.value, d⟩ ∈ D := by
  cases hw <;> exact mem_cons_self

theorem fresh_slice {k : Kind} {c : Object F k} {m₁ : Storage F} {list : Nat}
    (hm₁ : m.alloc k c = (m₁, list)) (c' : Content F) :
    (m₁.write ⟨.value, d⟩ c').read ⟨.value, d⟩ = some c' ∧
      Rebuilds m D (m₁.write ⟨.value, d⟩ c') [⟨.value, d⟩, ⟨k, list⟩] := by
  have hmem := At.mem_value hw
  obtain ⟨hreplace, hread, -⟩ := (Rebuilds.alloc_eq hm₁).replace_kept (hw.has _ hmem) c'
  exact ⟨hread, hreplace.grow (cons_subset.2 ⟨hmem, nil_subset D⟩)⟩

include hD

variable (copy) in
theorem setMapVal_eq (attrMap : Nat) : ∃ m₁ list,
      setMapVal copy m (some d) attrMap = initFromAttributeMap copy m₁ list attrMap ∧
      m₁.read ⟨.value, d⟩ = some (.kvlist (some list)) ∧
      Rebuilds m D m₁ [⟨.value, d⟩, ⟨.entries, list⟩] := by
  have hslice : (∃ list T, m.read ⟨.value, d⟩ = some (.kvlist (some list)) ∧
      D = ⟨.value, d⟩ :: ⟨.entries, list⟩ :: T) ∨
      ∃ c, m.read ⟨.value, d⟩ = some c ∧ c.entries = none := by
    cases hw with
    | plain hc hv => exact .inr ⟨_, hc, (Content.slices_of_plain hv).1⟩
    | array hc _ _ => exact .inr ⟨_, hc, rfl⟩
    | kvlist hc _ _ => exact .inl ⟨_, _, hc, rfl⟩
  rcases hslice with ⟨list, T, hc, rfl⟩ | ⟨c, hc, hnone⟩
  · refine ⟨m, list, ?_, hc, (Rebuilds.refl hD hw.has).drop ?_⟩
    · show (m.get .value (some d) >>= _) = _
      rw [get_some hc]
      rfl
    · exact ((nil_sublist T).cons_cons _).cons_cons _
  · rcases hm₁ : m.alloc .entries ([] : List (Option Nat)) with ⟨m₁, list⟩
    refine ⟨m₁.write ⟨.value, d⟩ (.kvlist (some list)), list, ?_, fresh_slice hw hm₁ _⟩
    simp only [setMapVal, orNew, get_some hc, bind, Except.bind, hnone, hm₁]

theorem setMapVal_matches
    (hcopy : ∀ k v, KeyValue.mk k v ∈ kvs → Copies copy v) {attrMap : Nat}
    (hes : m.read ⟨.entries, attrMap⟩ = some es)
    (hkvs : EntriesAt m kvs es S) (hS : S.Disjoint D) (hlist : ⟨.entries, attrMap⟩ ∉ D) :
    Matches (fun rs => BuiltAt m d D (.kvlist rs))
      (Pdata.initFromAttributeMap kvs) (setMapVal copy m (some d) attrMap) := by
  obtain ⟨m₁, list, heq, hd, hm₁⟩ := setMapVal_eq copy hw hD attrMap
  rw [heq]
  have hes₁ := (hm₁.changes.read _ (has_of_read hes) hlist).trans hes
  have hkvs₁ := hkvs.congr (hm₁.changes.read_of_disjoint hkvs.has hS)
  refine (initFromAttributeMap_matches hcopy hes₁ hkvs₁ (hm₁.has _ (by simp))).mono ?_
  rintro rs m₂ ⟨ws, D', hread, hrs, hD'⟩
  have hframe := hm₁.trans (hD'.frame_left (B := [(⟨.value, d⟩ : Place)])
    (forall_mem_singleton.2 (has_of_read hd)) hm₁.nodup)
  have hd₂ := (hD'.changes.read _ (has_of_read hd) (by simp)).trans hd
  exact ⟨_, .kvlist hd₂ hread hrs, hframe⟩

variable (copy) in
theorem setArrayVal_eq (arr : Nat) : ∃ m₁ list old ws T,
      setArrayVal copy m (some d) arr = copyArray copy m₁ arr list ∧
      m₁.read ⟨.value, d⟩ = some (.array (some list)) ∧ m₁.read ⟨.elements, list⟩ = some old ∧
      ElementsAt m₁ ws old T ∧ (∀ n, w.room n = (AnyValue.array ws).room n) ∧
      Rebuilds m D m₁ (⟨.value, d⟩ :: ⟨.elements, list⟩ :: T) := by
  have hslice : (∃ list ps ws T, m.read ⟨.value, d⟩ = some (.array (some list)) ∧
      m.read ⟨.elements, list⟩ = some ps ∧ ElementsAt m ws ps T ∧ w = .array ws ∧
      D = ⟨.value, d⟩ :: ⟨.elements, list⟩ :: T) ∨
      ∃ c, m.read ⟨.value, d⟩ = some c ∧ c.elements = none ∧
        ∀ n, w.room n = List.replicate n .null := by
    cases hw with
    | plain hc hv => exact .inr ⟨_, hc, (Content.slices_of_plain hv).2⟩
    | kvlist hc _ _ => exact .inr ⟨_, hc, rfl, fun _ => rfl⟩
    | array hc hlist hps => exact .inl ⟨_, _, _, _, hc, hlist, hps, rfl, rfl⟩
  rcases hslice with ⟨list, ps, ws, T, hc, hlist, hps, rfl, rfl⟩ | ⟨c, hc, hnone, hroom⟩
  · refine ⟨m, list, ps, ws, T, ?_, hc, hlist, hps, fun _ => rfl, .refl hD hw.has⟩
    show (m.get .value (some d) >>= _) = _
    rw [get_some hc]
    rfl
  · rcases hm₁ : m.alloc .elements ([] : List (Option Nat)) with ⟨m₁, list⟩
    obtain ⟨hread, hm⟩ := fresh_slice hw hm₁ (.array (some list))
    have hlist : (m₁.write ⟨.value, d⟩ (.array (some list))).read ⟨.elements, list⟩ =
        some ([] : List (Option Nat)) :=
      (read_write_ne m₁ (by simp) _).trans (read_alloc_eq hm₁)
    refine ⟨_, list, [], [], [], ?_, hread, hlist, .nil, fun n => ?_, hm⟩
    · simp only [setArrayVal, orNew, get_some hc, bind, Except.bind, hnone, hm₁]
    · rw [hroom]
      cases n <;> simp [AnyValue.room]

theorem setArrayVal_matches (hcopy : ∀ v ∈ vs, Copies copy v)
    {arr : Nat}
    (hels : m.read ⟨.elements, arr⟩ = some els) (hvs : ElementsAt m vs els S)
    (hS : S.Disjoint D) (harr : ⟨.elements, arr⟩ ∉ D) :
    Matches (fun rs => BuiltAt m d D (.array rs))
      (copyElements vs (w.room vs.length)) (setArrayVal copy m (some d) arr) := by
  obtain ⟨m₁, list, old, ws, T, heq, hd, hold, hws, hroom, hm₁⟩ := setArrayVal_eq copy hw hD arr
  rw [heq, hroom]
  have hels₁ := (hm₁.changes.read _ (has_of_read hels) harr).trans hels
  have hvs₁ := hvs.congr (hm₁.changes.read_of_disjoint hvs.has hS)
  obtain ⟨hdT, hT⟩ := nodup_cons.1 hm₁.nodup
  have hST : S.Disjoint (⟨.elements, list⟩ :: T) :=
    (disjoint_cons_right.1 (hm₁.disjoint hvs.has hS)).2
  refine (copyArray_matches hcopy hels₁ hvs₁ hold hws hST hT).mono ?_
  rintro rs m₂ ⟨qs, D', hread, hrs, hD'⟩
  have hframe := hm₁.trans (hD'.frame_left (B := [(⟨.value, d⟩ : Place)])
    (forall_mem_singleton.2 (has_of_read hd)) hm₁.nodup)
  have hd₂ := (hD'.changes.read _ (has_of_read hd) hdT).trans hd
  exact ⟨_, .array hd₂ hread hrs, hframe⟩

theorem empty_matches {α : Type} {f : α → AnyValue F} {x : Go α} {y : Go (Storage F)} {k : Kind}
    {c : Object F k} {m₁ : Storage F} {list : Nat} (hm₁ : m.alloc k c = (m₁, list))
    (h : w.At m₁ (some d) D → ⟨k, list⟩ ∉ D → Matches (fun rs => BuiltAt m₁ d D (f rs)) x y) :
    Matches (fun rs => BuiltAt m d D (f rs)) x y := by
  have halloc := Rebuilds.alloc_eq hm₁
  have hw₁ := hw.congr (halloc.changes.read_of_disjoint hw.has (disjoint_nil D))
  have hlist : ⟨k, list⟩ ∉ D := fun hmem =>
    halloc.disjoint hw.has (disjoint_nil D) hmem mem_cons_self
  refine (h hw₁ hlist).mono ?_
  rintro rs m' ⟨D', hrs, hD'⟩
  exact ⟨D', hrs, Rebuilds.alloc_trans hm₁ hD' hD hw.has⟩

omit hD in
theorem assign_matches {c : Content F} (hc : c.plain = some v) :
    Matches (BuiltAt m d D) (w.assign v) (m.assign (some d) c) := by
  have hmem := At.mem_value hw
  have hhas := hw.has _ hmem
  rw [AnyValue.assign_ok (At.ne_nil hw)]
  exact .ok ⟨_, .plain (read_write_self hhas c) hc,
    (Rebuilds.write hhas c).grow (cons_subset.2 ⟨hmem, nil_subset D⟩)⟩

omit hD in
theorem replace_matches {α : Type} (f : α → AnyValue F) {x : Go α} {y : Go (Storage F)}
    (h : Matches (fun rs => BuiltAt m d D (f rs)) x y) :
    Matches (BuiltAt m d D) (x >>= fun rs => pure (w.replace (f rs))) y := by
  refine h.bind_left ?_
  rintro rs m' hrs
  rw [AnyValue.replace_ok (At.ne_nil hw)]
  exact .ok hrs

end Destination

/-! ## Values of any depth -/

theorem copyValue_copies
    (hentries : ∀ kvs, v = .kvlist kvs → ∀ k v, KeyValue.mk k v ∈ kvs → Copies copy v)
    (helements : ∀ vs, v = .array vs → ∀ v ∈ vs, Copies copy v) : Copies (copyValue copy) v where
  matches_copyTo {m p S w d D} hv hw hS hD := by
    cases hv with
    | nil => exact assign_matches hw rfl
    | @plain a c _ ha hc =>
      show Matches _ _ (m.get .value (some a) >>= _)
      rw [get_some ha]
      cases c with
      | kvlist list =>
        cases list with
        | none =>
          cases hc
          rcases hm₁ : m.alloc .entries ([] : List (Option Nat)) with ⟨m₁, list⟩
          exact replace_matches hw AnyValue.kvlist (empty_matches hw hD hm₁ fun hw₁ hl =>
            setMapVal_matches hw₁ hD (by simp) (read_alloc_eq hm₁) .nil (disjoint_nil_left D)
              hl)
        | some list => cases hc
      | array list =>
        cases list with
        | none =>
          cases hc
          rcases hm₁ : m.alloc .elements ([] : List (Option Nat)) with ⟨m₁, list⟩
          exact replace_matches hw AnyValue.array (empty_matches hw hD hm₁ fun hw₁ hl =>
            setArrayVal_matches hw₁ hD (by simp) (read_alloc_eq hm₁) .nil (disjoint_nil_left D)
              hl)
        | some list => cases hc
      | _ =>
        cases hc
        exact assign_matches hw rfl
    | @kvlist a list es kvs T ha hlist hes =>
      show Matches _ _ (m.get .value (some a) >>= _)
      rw [get_some ha, AnyValue.copyTo]
      obtain ⟨-, hS⟩ := disjoint_cons_left.1 hS
      obtain ⟨hl, hS⟩ := disjoint_cons_left.1 hS
      exact replace_matches hw AnyValue.kvlist
        (setMapVal_matches hw hD (hentries kvs rfl) hlist hes hS hl)
    | @array a list els vs T ha hlist hps =>
      show Matches _ _ (m.get .value (some a) >>= _)
      rw [get_some ha, AnyValue.copyTo]
      obtain ⟨-, hS⟩ := disjoint_cons_left.1 hS
      obtain ⟨hl, hS⟩ := disjoint_cons_left.1 hS
      exact replace_matches hw AnyValue.array
        (setArrayVal_matches hw hD (helements vs rfl) hlist hps hS hl)
  nil_on_nil _ _ := rfl

end Storage

mutual
def AnyValue.depth : AnyValue F → Nat
  | .kvlist kvs => entriesDepth kvs + 1
  | .array vs => elementsDepth vs + 1
  | _ => 0

def entriesDepth : List (KeyValue F) → Nat
  | [] => 0
  | .nil :: kvs => entriesDepth kvs
  | .mk _ v :: kvs => max v.depth (entriesDepth kvs)

def elementsDepth : List (AnyValue F) → Nat
  | [] => 0
  | v :: vs => max v.depth (elementsDepth vs)
end

variable {kvs : List (KeyValue F)}

theorem depth_le_entriesDepth {k : String} (h : KeyValue.mk k v ∈ kvs) :
    v.depth ≤ entriesDepth kvs := by
  induction kvs with
  | nil => exact absurd h not_mem_nil
  | cons kv kvs ih =>
    rcases mem_cons.1 h with rfl | hmem
    · exact Nat.le_max_left _ _
    · cases kv with
      | nil =>
        exact ih hmem
      | mk k' v' =>
        exact Nat.le_trans (ih hmem) (Nat.le_max_right _ _)

theorem depth_le_elementsDepth {vs : List (AnyValue F)} (h : v ∈ vs) :
    v.depth ≤ elementsDepth vs := by
  induction vs with
  | nil => exact absurd h not_mem_nil
  | cons w vs ih =>
    rcases mem_cons.1 h with rfl | h
    · exact Nat.le_max_left _ _
    · exact Nat.le_trans (ih h) (Nat.le_max_right _ _)

theorem copies_copyTo {n : Nat} (h : v.depth < n) : Copies (Storage.copyTo n) v := by
  induction n generalizing v with
  | zero => omega
  | succ n ih =>
    have hstep : Copies (Storage.copyValue (Storage.copyTo n)) v := by
      refine Storage.copyValue_copies ?_ ?_
      · rintro kvs rfl k v hkv
        rw [AnyValue.depth] at h
        have hle := depth_le_entriesDepth hkv
        exact ih (by omega)
      · rintro vs rfl v hv
        rw [AnyValue.depth] at h
        have hle := depth_le_elementsDepth hv
        exact ih (by omega)
    exact hstep

/-! ## Maps -/

namespace Storage

variable {copy : Storage F → Option Nat → Option Nat → Go (Storage F)} {dest : Nat}

theorem copyToEntry_matches {k k' : String} {w : AnyValue F} (hcopy : Copies copy v) {e d : Nat}
    {p q : Option Nat} {T : List Place} {i : Nat} {ds : List (Option Nat)}
    (he : m.read ⟨.entry, e⟩ = some ⟨k, p⟩) (hv : v.At m p S)
    (hdest : m.read ⟨.entries, dest⟩ = some ds) (hi : ds[i]? = some (some d))
    (hd : m.read ⟨.entry, d⟩ = some ⟨k', q⟩) (hw : w.At m q T) (hS : S.Disjoint (⟨.entry, d⟩ :: T))
    (hT : (⟨.entry, d⟩ :: T : List Place).Nodup) :
    Matches (fun r m' => ∃ q' D, m'.read ⟨.entry, d⟩ = some ⟨k, q'⟩ ∧ r.At m' q' D ∧
      Rebuilds m (⟨.entry, d⟩ :: T) m' (⟨.entry, d⟩ :: D))
      (v.copyTo w.orNull) (copyToEntry copy m (some e) dest i) := by
  have hindex : index ds i = .ok (some d) := by
    unfold index
    rw [hi]
  have hhas : ∀ x ∈ (⟨.entry, d⟩ :: T : List Place), m.Has x :=
    forall_mem_cons.2 ⟨has_of_read hd, hw.has⟩
  rw [copyToEntry, get_some hdest]
  show Matches _ _ (index ds i >>= _)
  rw [hindex]
  show Matches _ _ (m.get .entry (some e) >>= _)
  rw [get_some he]
  rw [get_some hd]
  have hkey : Rebuilds m (⟨.entry, d⟩ :: T) (m.write ⟨.entry, d⟩ ⟨k, q⟩) (⟨.entry, d⟩ :: T) :=
    .write_frame _ hT hhas
  have hself := has_of_read hd
  rcases hw.pointer with ⟨rfl, rfl, rfl⟩ | ⟨hne, a, rfl⟩
  · -- the entry has no message yet
    show Matches _ (v.copyTo .null)
      (copy (((m.write ⟨.entry, d⟩ ⟨k, none⟩).alloc .value .null).1.write ⟨.entry, d⟩
        ⟨k, some ((m.write ⟨.entry, d⟩ ⟨k, none⟩).alloc .value .null).2⟩) p
        (some ((m.write ⟨.entry, d⟩ ⟨k, none⟩).alloc .value .null).2))
    rcases hm₂ : (m.write ⟨.entry, d⟩ ⟨k, none⟩).alloc .value .null with ⟨m₂, a⟩
    have hnew := Rebuilds.alloc_eq hm₂
    have hm₃ := hkey.trans (hnew.replace (hkey.has _ mem_cons_self) ⟨k, some a⟩)
    have hnull : AnyValue.null.At (m₂.write ⟨.entry, d⟩ ⟨k, some a⟩) (some a) [⟨.value, a⟩] :=
      .plain ((read_write_ne m₂ (by simp) _).trans (read_alloc_eq hm₂)) rfl
    refine (hcopy.frame hv hS hnull (hm₃.perm (.refl _) (List.Perm.swap _ _ _))).mono ?_
    rintro r m' ⟨D, hr, hD, hkept⟩
    refine ⟨some a, D, ?_, hr, hD.perm (.refl _) (perm_append_singleton _ _)⟩
    rw [hkept _ mem_cons_self]
    exact read_write_self (hnew.changes.has _ (hkey.has _ mem_cons_self)) _
  · have hnull : w.orNull = w := by
      cases w <;> first | rfl | exact absurd rfl hne
    rw [hnull]
    have hw₁ := hw.congr (read_write_of_nodup hT ⟨k, some a⟩)
    have hm₁ := hkey.perm (.refl _) (perm_append_singleton _ _).symm
    refine (hcopy.frame hv hS hw₁ hm₁).mono ?_
    rintro r m' ⟨D, hr, hD, hkept⟩
    refine ⟨some a, D, ?_, hr, hD.perm (.refl _) (perm_append_singleton _ _)⟩
    rw [hkept _ mem_cons_self]
    exact read_write_self hself _

theorem copyToEntry_nil {e d : Option Nat} {i : Nat} {ds : List (Option Nat)}
    (hdest : m.read ⟨.entries, dest⟩ = some ds) (hi : ds[i]? = some d) (h : d = none ∨ e = none) :
    copyToEntry copy m e dest i = .error .nilDereference := by
  have hindex : index ds i = .ok d := by
    unfold index
    rw [hi]
  rw [copyToEntry, get_some hdest]
  show (index ds i >>= _) = _
  rw [hindex]
  cases d with
  | none => rfl
  | some d =>
    rcases h with h | rfl
    · cases h
    · rfl

theorem reuseEntries_matches {ds : List (KeyValue F)}
    (hcopy : ∀ k v, KeyValue.mk k v ∈ kvs → Copies copy v) (hlen : ds.length = kvs.length)
    {es done ps : List (Option Nat)} (hkvs : EntriesAt m kvs es S)
    (hdest : m.read ⟨.entries, dest⟩ = some (done ++ ps)) (hds : EntriesAt m ds ps D)
    (hS : S.Disjoint D) (hD : D.Nodup) (hnot : ⟨.entries, dest⟩ ∉ D) :
    Matches (fun rs m' => ∃ D', EntriesAt m' rs ps D' ∧ Rebuilds m D m' D')
      (copyEntries kvs ds) (reuseEntries copy dest done.length m es) := by
  induction kvs generalizing m ds es done ps S D with
  | nil =>
    obtain rfl := eq_nil_of_length_eq_zero hlen
    cases hkvs
    cases hds
    exact .ok ⟨[], .nil, .refl nodup_nil (by simp)⟩
  | cons kv kvs ih =>
    obtain ⟨d, ds, rfl⟩ := exists_cons_of_length_eq_add_one hlen
    have hat : ∀ q qs, (done ++ q :: qs)[done.length]? = some q := by simp
    cases hkvs with
    | skip hes =>
      -- a nil entry of the source
      rw [reuseEntries]
      cases hds with
      | skip hds =>
        rw [copyToEntry_nil hdest (hat _ _) (.inl rfl)]
        exact .error _
      | cons hd hw hds =>
        rw [copyToEntry_nil hdest (hat _ _) (.inr rfl)]
        exact .error _
    | @cons e k p v es _ S₁ S₂ he hv hes =>
      rw [reuseEntries]
      cases hds with
      | skip hds =>
        rw [copyToEntry_nil hdest (hat _ _) (.inl rfl)]
        exact .error _
      | @cons d' k' q w qs _ T U hd hw hds =>
        obtain ⟨-, hS⟩ := disjoint_cons_left.1 hS
        obtain ⟨hS₁, hS₂⟩ := disjoint_append_left.1 hS
        have hnodup : ((⟨.entry, d'⟩ :: T) ++ U).Nodup := hD
        obtain ⟨hT, hU, hTU⟩ := nodup_append'.1 hnodup
        have hsub : (⟨.entry, d'⟩ :: T : List Place) ⊆ ⟨.entry, d'⟩ :: (T ++ U) :=
          subset_append_left (⟨.entry, d'⟩ :: T) U
        have hsub' : U ⊆ (⟨.entry, d'⟩ :: (T ++ U) : List Place) :=
          fun x hx => mem_cons_of_mem _ (mem_append_right T hx)
        refine (copyToEntry_matches (hcopy k v mem_cons_self) he hv hdest (hat _ _) hd hw
          (disjoint_of_subset_right hsub hS₁) hT).bind ?_
        rintro r m₁ ⟨q', D₁, hd₁, hr, hD₁⟩
        have hes₁ := hes.congr (hD₁.changes.read_of_disjoint hes.has
          (disjoint_of_subset_right hsub hS₂))
        have hds₁ := hds.congr (hD₁.changes.read_of_disjoint hds.has (List.disjoint_comm.1 hTU))
        have hdest₁ : m₁.read ⟨.entries, dest⟩ = some ((done ++ [some d']) ++ qs) := by
          rw [hD₁.changes.read _ (has_of_read hdest) fun h => hnot (hsub h), hdest,
            append_assoc]
          rfl
        have hrest := ih (fun k v hkv => hcopy k v (mem_cons_of_mem _ hkv))
          (Nat.succ.inj hlen) hes₁ hdest₁ hds₁ (disjoint_of_subset_right hsub' hS₂) hU
          fun h => hnot (hsub' h)
        rw [length_append, length_singleton] at hrest
        refine Matches.bind_left hrest ?_
        rintro rs m₂ ⟨D₂, hrs, hD₂⟩
        have hkept := hD₂.changes.read_of_disjoint hD₁.has
          (List.disjoint_comm.1 (hD₁.disjoint hds.has (List.disjoint_comm.1 hTU)))
        refine .ok ⟨(⟨.entry, d'⟩ :: D₁) ++ D₂, ?_, hD₁.append hD₂ hds.has hnodup⟩
        exact .cons ((hkept _ mem_cons_self).trans hd₁)
          (hr.congr fun x hx => hkept x (mem_cons_of_mem _ hx)) hrs

theorem copyMap_matches {ds : List (KeyValue F)}
    (hcopy : ∀ k v, KeyValue.mk k v ∈ kvs → Copies copy v) {am : Nat}
    (hkvs : MapAt m kvs am S) (hds : MapAt m ds dest D) (hS : S.Disjoint D)
    (hD : kvs ≠ [] → kvs.length ≤ ds.length → D.Nodup) :
    Matches (fun rs m' => ∃ D', MapAt m' rs dest D' ∧ Rebuilds m D m' D')
      (AttributeMap.copyTo kvs ds) (copyMap copy m am dest) := by
  obtain ⟨es, S, rfl, hes, hkvs⟩ := hkvs
  obtain ⟨old, D, rfl, hdest, hds⟩ := hds
  obtain ⟨-, hS⟩ := disjoint_cons_left.1 hS
  have hself := has_of_read hdest
  have hhas : ∀ x ∈ (⟨.entries, dest⟩ :: D : List Place), m.Has x :=
    forall_mem_cons.2 ⟨hself, hds.has⟩
  unfold AttributeMap.copyTo
  rw [copyMap, get_some hes]
  show Matches _ _ (if es.length = 0 then _ else _)
  by_cases hzero : es.length = 0
  · obtain rfl : kvs = [] := eq_nil_of_length_eq_zero (hkvs.length_eq.symm.trans hzero)
    have hfits : ([] : List (KeyValue F)).length ≤ ds.length := Nat.zero_le _
    rw [if_pos hzero, if_pos hfits]
    have hwrite := (Rebuilds.write hself ([] : List (Option Nat))).grow
      (B := ⟨.entries, dest⟩ :: D) (by simp)
    exact .ok ⟨_, ⟨[], [], rfl, read_write_self hself _, .nil⟩, hwrite⟩
  rw [if_neg hzero, get_some hdest, ← hkvs.length_eq, ← hds.length_eq]
  show Matches _ _ (if es.length ≤ old.length then _ else _)
  by_cases hle : es.length ≤ old.length
  · -- the front of the old entries is reused
    rw [if_pos hle, if_pos hle]
    rw [hkvs.length_eq] at hzero
    have hD := hD (fun h => hzero (by rw [h]; rfl)) (by rwa [← hkvs.length_eq, ← hds.length_eq])
    obtain ⟨T, hT, hsub⟩ := hds.take es.length
    have hsub' := hsub.cons_cons (⟨.entries, dest⟩ : Place)
    have hnodup := hD.sublist hsub'
    have hwrite : Rebuilds m (⟨.entries, dest⟩ :: D)
        (m.write ⟨.entries, dest⟩ (old.take es.length)) (⟨.entries, dest⟩ :: T) :=
      (Rebuilds.write_frame _ hD hhas).drop hsub'
    have hT' := hT.congr (read_write_of_nodup hnodup (old.take es.length))
    have hkvs' := hkvs.congr (hwrite.changes.read_of_disjoint hkvs.has hS)
    have hdest' : (m.write ⟨.entries, dest⟩ (old.take es.length)).read ⟨.entries, dest⟩ =
        some ([] ++ old.take es.length) := read_write_self hself _
    have hlen : (ds.take es.length).length = kvs.length := by
      rw [length_take, ← hds.length_eq, ← hkvs.length_eq]
      omega
    obtain ⟨hnot, hTn⟩ := nodup_cons.1 hnodup
    have hST : S.Disjoint T := disjoint_of_subset_right
      (List.Subset.trans hsub.subset (subset_cons_self _ _)) hS
    refine (reuseEntries_matches hcopy hlen hkvs' hdest' hT' hST hTn hnot).mono ?_
    rintro rs m' ⟨D', hrs, hD'⟩
    have hframe := hD'.frame_left (B := [(⟨.entries, dest⟩ : Place)])
      (forall_mem_singleton.2 (hwrite.has _ mem_cons_self)) hnodup
    have hread := (hD'.changes.read _ (hwrite.has _ mem_cons_self) hnot).trans hdest'
    exact ⟨_, ⟨_, D', rfl, hread, hrs⟩, hwrite.trans hframe⟩
  · -- all entries are new
    rw [if_neg hle, if_neg hle]
    refine Matches.bind_right (newEntries_matches hcopy hkvs) ?_
    rintro rs ⟨m₁, ws⟩ ⟨D', hrs, hD'⟩
    obtain ⟨hreplace, hread, hkept⟩ := hD'.replace_kept hself ws
    exact .ok ⟨_, ⟨ws, D', rfl, hread, hrs.congr hkept⟩, hreplace.grow (by simp)⟩

/-- `AttributeMap.CopyTo`, with room on the stack for `n` calls of `copyTo` within one another. -/
def attributesCopyTo (n : Nat) (m : Storage F) (am dest : Nat) : Go (Storage F) :=
  copyMap (copyTo n) m am dest

end Storage

/-! ## Deep copies -/

theorem MapAt.congr {m' : Storage F} {am : Nat} (h : MapAt m kvs am S)
    (hread : ∀ x ∈ S, m'.read x = m.read x) : MapAt m' kvs am S := by
  obtain ⟨es, T, rfl, hes, hkvs⟩ := h
  obtain ⟨hself, hread⟩ := forall_mem_cons.1 hread
  exact ⟨es, T, rfl, hself.trans hes, hkvs.congr hread⟩

theorem MapAt.has {am : Nat} (h : MapAt m kvs am S) : ∀ x ∈ S, m.Has x := by
  obtain ⟨es, T, rfl, hes, hkvs⟩ := h
  exact forall_mem_cons.2 ⟨has_of_read hes, hkvs.has⟩

/-- The map `dest` holds a copy of the map `am`, and neither changes with the other. -/
structure DeepCopied (m : Storage F) (kvs : List (KeyValue F)) (am dest : Nat) (S D : List Place) :
    Prop where
  source : MapAt m kvs am S
  copied : MapAt m (normEntries kvs) dest D
  source_kept : ∀ m', Changes D m m' → MapAt m' kvs am S
  copied_kept : ∀ m', Changes S m m' → MapAt m' (normEntries kvs) dest D

/-- One map holds a string and an array with a nil element, the other one an array that is
reused. -/
def twoMaps : Storage Unit
  | .value => [.string "a", .array (some 0), .int 1, .array (some 1), .null, .int 7]
  | .entry => [⟨"k", some 1⟩, ⟨"s", some 0⟩, ⟨"old", some 3⟩, ⟨"older", none⟩]
  | .entries => [[some 0, some 1], [some 2, some 3]]
  | .elements => [[none, some 2], [some 4, some 5]]

theorem source_twoMaps : MapAt twoMaps
    [.mk "k" (.array [.nil, .int 1]), .mk "s" (.string "a")] 0
    [⟨.entries, 0⟩, ⟨.entry, 0⟩, ⟨.value, 1⟩, ⟨.elements, 0⟩, ⟨.value, 2⟩, ⟨.entry, 1⟩,
      ⟨.value, 0⟩] :=
  ⟨_, _, rfl, rfl, .cons rfl (.array rfl rfl (.cons .nil (.cons (.plain rfl rfl) .nil)))
    (.cons rfl (.plain rfl rfl) .nil)⟩

theorem dest_twoMaps : MapAt twoMaps
    [.mk "old" (.array [.null, .int 7]), .mk "older" .nil] 1
    [⟨.entries, 1⟩, ⟨.entry, 2⟩, ⟨.value, 3⟩, ⟨.elements, 1⟩, ⟨.value, 4⟩, ⟨.value, 5⟩,
      ⟨.entry, 3⟩] :=
  ⟨_, _, rfl, rfl, .cons rfl (.array rfl rfl (.cons (.plain rfl rfl) (.cons (.plain rfl rfl) .nil)))
    (.cons rfl .nil .nil)⟩

/-- Both maps hold an array with a nil element. -/
def nilOnNil : Storage Unit
  | .value => [.array (some 0), .array (some 1)]
  | .entry => [⟨"k", some 0⟩, ⟨"k", some 1⟩]
  | .entries => [[some 0], [some 1]]
  | .elements => [[none], [none]]

namespace Storage

/-- `AttributeMap.Get`: the entry whose value is returned. -/
def find (m : Storage F) (key : String) : List (Option Nat) → Go (Option Entry)
  | [] => .ok none
  | none :: es => find m key es
  | some e :: es => do
    let (kv : Entry) ← m.get .entry (some e)
    if kv.key = key then return some kv else find m key es

/-- `AttributeMap.Update`. -/
def update (n : Nat) (m : Storage F) (am : Nat) (k : String) (v : Option Nat) : Go (Storage F) := do
  match ← m.find k (← m.get .entries (some am)) with
  | some kv => copyTo n m v kv.value
  | none => return m

end Storage

namespace AttributeMap

def threeEntries : AttributeMap Int :=
  [.mk "a" (.array [.int 1, .int 2]), .mk "b" (.bool true), .mk "c" .null]

/-- The array is replaced by a map that holds an array, one entry is deleted and one inserted. -/
def nestedOps : List (Op Int) :=
  [.upsert "a" (.kvlist [.mk "x" (.array [.string "y"])]), .delete "b", .insertInt "b" 3,
    .update "d" (.string "no")]

/-- A map with the value `[[[1, 2], 9], 7]`. -/
def nestedArray : Storage Unit
  | .value => [.array (some 0), .array (some 1), .int 7, .array (some 2), .int 9, .int 1, .int 2]
  | .entry => [⟨"k", some 0⟩]
  | .entries => [[some 0]]
  | .elements => [[some 1, some 2], [some 3, some 4], [some 5, some 6]]

theorem pair_at {a list : Nat} {p q : Option Nat} {w : AnyValue F} {T : List Place}
    (ha : m.read ⟨.value, a⟩ = some (.array (some list)))
    (hlist : m.read ⟨.elements, list⟩ = some [p, q]) (hv : v.At m p S) (hw : w.At m q T) :
    (AnyValue.array [v, w]).At m (some a) (⟨.value, a⟩ :: ⟨.elements, list⟩ :: (S ++ (T ++ []))) :=
  .array ha hlist (.cons hv (.cons hw .nil))

theorem entry_at {am e : Nat} {k : String} {p : Option Nat}
    (ham : m.read ⟨.entries, am⟩ = some [some e]) (he : m.read ⟨.entry, e⟩ = some ⟨k, p⟩)
    (hv : ∃ S, v.At m p S) : ∃ S, MapAt m [.mk k v] am S := by
  obtain ⟨S, hv⟩ := hv
  exact ⟨_, _, _, rfl, ham, .cons he hv .nil⟩

end AttributeMap

end Collector.Pdata
