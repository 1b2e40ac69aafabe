import Admission.Proofs.Room
import Mathlib.Data.Set.Card
import Mathlib.Data.List.Nodup

/-!
# A census of an index

An index stands for a set of tickets, and the numbers that a controller reports are sizes of maps
and of buckets. Here they become numbers of tickets. The one list behind all of them is
`Buckets.listing`, the numbers in the index key by key:

> it names each ticket of the set once.

The check that a waiting room makes of itself walks along the same list (`Buckets.covers_iff`). So
its answer is right whatever the four views contain (`WaitingRoom.own_check_is_exact`).
-/

set_option autoImplicit false

namespace Admission

variable {W : Set Ticket}

/-! ## Counting a set by a list -/

section Listed

variable {ids : List Nat}

theorem image_id_eq (hmem : ∀ i, i ∈ ids ↔ ∃ t ∈ W, t.id = i) :
    Ticket.id '' W = (ids.toFinset : Set Nat) := by
  ext i
  simp [hmem]

/-- A list that names each ticket of a set once is as long as the set is large. -/
theorem ncard_eq_length (hinj : Set.InjOn Ticket.id W) (hnodup : ids.Nodup)
    (hmem : ∀ i, i ∈ ids ↔ ∃ t ∈ W, t.id = i) : W.ncard = ids.length := by
  rw [← hinj.ncard_image, image_id_eq hmem, Set.ncard_coe_finset,
    List.toFinset_card_of_nodup hnodup]

theorem finite_of_listed (hinj : Set.InjOn Ticket.id W)
    (hmem : ∀ i, i ∈ ids ↔ ∃ t ∈ W, t.id = i) : W.Finite := by
  refine Set.Finite.of_finite_image ?_ hinj
  rw [image_id_eq hmem]
  exact ids.toFinset.finite_toSet

end Listed

theorem Ids.nodup_toList (s : Ids) : s.toList.Nodup := by
  refine s.ordered_toList.imp fun h heq => ?_
  rw [heq, Std.ReflOrd.compare_self] at h
  cases h

theorem Ids.ncard_eq_size {s : Ids} (hinj : Set.InjOn Ticket.id W)
    (hmem : ∀ i, i ∈ s ↔ ∃ t ∈ W, t.id = i) : W.ncard = s.size := by
  rw [← Std.ExtTreeSet.length_toList]
  exact ncard_eq_length hinj (nodup_toList s) fun i => by rw [Std.ExtTreeSet.mem_toList, hmem]

namespace Buckets

variable {κ : Type} [Ord κ] [Std.TransOrd κ] {b : Buckets κ} {key : Ticket → κ}

/-- The numbers in the index, key by key. -/
def listing (b : Buckets κ) : List Nat := b.toList.flatMap fun row => row.2.toList

theorem total_eq_sum (b : Buckets κ) : b.total = (b.counts.map Prod.snd).sum := by
  rw [total, List.sum_eq_foldl_nat, List.foldl_map]

theorem length_listing (b : Buckets κ) : b.listing.length = b.total := by
  rw [total_eq_sum, listing, List.length_flatMap, counts, List.map_map]
  refine congrArg List.sum (List.map_congr_left fun row _ => ?_)
  exact Std.ExtTreeSet.length_toList

/-- The counts come in the order of the keys. -/
theorem ordered_counts (b : Buckets κ) :
    (b.counts.map Prod.fst).Pairwise fun k l => compare k l = .lt := by
  have hfst : b.counts.map Prod.fst = b.toList.map Prod.fst := by
    rw [counts, List.map_map]
    rfl
  rw [hfst, List.pairwise_map]
  exact b.ordered_keys_toList

/-- A bucket holds as many numbers as there are tickets with its key. -/
theorem Indexes.count_eq_ncard (h : b.Indexes key W) (hinj : Set.InjOn Ticket.id W) (k : κ) :
    b.count k = {t ∈ W | key t = k}.ncard := by
  refine (Ids.ncard_eq_size (hinj.mono (Set.sep_subset W _)) fun i => ?_).symm
  simp only [h.mem_ids_iff, Set.mem_sep_iff, and_assoc]

variable [Std.LawfulEqOrd κ]

theorem mem_toList_iff {row : κ × Ids} : row ∈ b.toList ↔ b[row.1]? = some row.2 :=
  Std.ExtTreeMap.mem_toList_iff_getElem?_eq_some

/-- A number in the bucket of a row stands under the row's key. -/
theorem mem_ids_of_mem_toList {row : κ × Ids} {i : Nat} (hrow : row ∈ b.toList)
    (hi : i ∈ row.2.toList) : i ∈ b.ids row.1 := by
  rw [ids, mem_toList_iff.mp hrow]
  exact Std.ExtTreeSet.mem_toList.mp hi

/-- The numbers come key by key, and under each key in ascending order. -/
theorem pairwise_listing (b : Buckets κ) :
    b.listing.Pairwise fun i j => ∃ k l, i ∈ b.ids k ∧ j ∈ b.ids l ∧
      (compare k l = .lt ∨ k = l ∧ i < j) := by
  refine List.pairwise_flatMap.mpr ⟨fun row hrow => ?_, ?_⟩
  · refine (Std.ExtTreeSet.ordered_toList (t := row.2)).imp_of_mem fun hi hj hlt => ?_
    exact ⟨row.1, row.1, mem_ids_of_mem_toList hrow hi, mem_ids_of_mem_toList hrow hj,
      Or.inr ⟨rfl, Nat.compare_eq_lt.mp hlt⟩⟩
  · refine b.ordered_keys_toList.imp_of_mem fun hrow hrow' hlt i hi j hj => ?_
    exact ⟨_, _, mem_ids_of_mem_toList hrow hi, mem_ids_of_mem_toList hrow' hj, Or.inl hlt⟩

/-- A number under a key stands in the bucket of a row. -/
theorem exists_row_of_mem_ids {k : κ} {i : Nat} (hi : i ∈ b.ids k) :
    ∃ bucket, (k, bucket) ∈ b.toList ∧ i ∈ bucket.toList := by
  rw [ids] at hi
  cases hk : b[k]? with
  | none =>
    rw [hk] at hi
    exact absurd hi Std.ExtTreeSet.not_mem_empty
  | some bucket =>
    rw [hk] at hi
    exact ⟨bucket, mem_toList_iff.mpr hk, Std.ExtTreeSet.mem_toList.mpr hi⟩

theorem mem_listing_iff {i : Nat} : i ∈ b.listing ↔ ∃ k, i ∈ b.ids k := by
  rw [listing, List.mem_flatMap]
  constructor
  · rintro ⟨row, hrow, hi⟩
    exact ⟨row.1, mem_ids_of_mem_toList hrow hi⟩
  · rintro ⟨k, hi⟩
    obtain ⟨bucket, hbucket, hi⟩ := exists_row_of_mem_ids hi
    exact ⟨(k, bucket), hbucket, hi⟩

/-- No number is listed twice exactly if none stands under two keys. -/
theorem nodup_listing_iff :
    b.listing.Nodup ↔ ∀ k l i, i ∈ b.ids k → i ∈ b.ids l → k = l := by
  constructor
  · intro h k l i hk hl
    obtain ⟨bucket, hbucket, hi⟩ := exists_row_of_mem_ids hk
    obtain ⟨bucket', hbucket', hi'⟩ := exists_row_of_mem_ids hl
    have hsymm : Std.Symm (Function.onFun List.Disjoint fun row : κ × Ids => row.2.toList) :=
      ⟨fun _ _ hapart => hapart.symm⟩
    by_contra hne
    have hapart : bucket.toList.Disjoint bucket'.toList :=
      (List.nodup_flatMap.mp h).2.forall hbucket hbucket' fun heq => hne (congrArg Prod.fst heq)
    exact hapart hi hi'
  · intro h
    refine List.nodup_flatMap.mpr ⟨fun row _ => Ids.nodup_toList row.2, ?_⟩
    refine b.distinct_keys_toList.imp_of_mem fun {row row'} hrow hrow' hne i hi hi' => hne ?_
    have hkeys := h row.1 row'.1 i (mem_ids_of_mem_toList hrow hi) (mem_ids_of_mem_toList hrow' hi')
    exact Std.LawfulEqCmp.compare_eq_iff_eq.mpr hkeys

/-! ## What the sizes say -/

namespace Indexes

theorem mem_listing_iff (h : b.Indexes key W) (i : Nat) :
    i ∈ b.listing ↔ ∃ t ∈ W, t.id = i := by
  rw [Buckets.mem_listing_iff]
  simp only [h.mem_ids_iff]
  constructor
  · rintro ⟨k, t, ht, -, hid⟩
    exact ⟨t, ht, hid⟩
  · rintro ⟨t, ht, hid⟩
    exact ⟨key t, t, ht, rfl, hid⟩

theorem nodup_listing (h : b.Indexes key W) (hinj : Set.InjOn Ticket.id W) : b.listing.Nodup := by
  refine nodup_listing_iff.mpr fun k l i hk hl => ?_
  -- One number under two keys would be the number of one ticket, which has one key.
  obtain ⟨t, ht, hkey, hid⟩ := (h.mem_ids_iff k i).mp hk
  obtain ⟨u, hu, hkey', hid'⟩ := (h.mem_ids_iff l i).mp hl
  obtain rfl := hinj ht hu (hid.trans hid'.symm)
  exact hkey.symm.trans hkey'

/-- All buckets together hold as many numbers as there are tickets. -/
theorem total_eq_ncard (h : b.Indexes key W) (hinj : Set.InjOn Ticket.id W) :
    b.total = W.ncard := by
  rw [← length_listing, ncard_eq_length hinj (h.nodup_listing hinj) h.mem_listing_iff]

theorem finite (h : b.Indexes key W) (hinj : Set.InjOn Ticket.id W) : W.Finite :=
  finite_of_listed hinj h.mem_listing_iff

/-- There are as many keys as the tickets have. -/
theorem size_eq_ncard (h : b.Indexes key W) : b.size = (key '' W).ncard := by
  have hkeys : key '' W = {k | k ∈ b.keys} := by
    ext k
    exact (h.mem_iff k).symm.trans Std.ExtTreeMap.mem_keys.symm
  classical
  rw [hkeys, ← List.coe_toFinset, Set.ncard_coe_finset,
    List.toFinset_card_of_nodup b.nodup_keys, Std.ExtTreeMap.length_keys]

/-- The rows of the counts are the keys that occur, each with the number of its tickets. -/
theorem mem_counts_iff (h : b.Indexes key W) (hinj : Set.InjOn Ticket.id W) (k : κ) (n : Nat) :
    (k, n) ∈ b.counts ↔ n = {t ∈ W | key t = k}.ncard ∧ 0 < n := by
  have hcount : ∀ bucket, b[k]? = some bucket →
      bucket.size = {t ∈ W | key t = k}.ncard ∧ 0 < bucket.size := by
    intro bucket hk
    rw [← h.count_eq_ncard hinj, count, ids, hk]
    refine ⟨rfl, Nat.pos_of_ne_zero fun hzero => h.pruned k bucket hk ?_⟩
    exact Std.ExtTreeSet.eq_empty_iff_size_eq_zero.mpr hzero
  simp only [counts, List.mem_map, mem_toList_iff, Prod.mk.injEq]
  constructor
  · rintro ⟨row, hrow, rfl, rfl⟩
    exact hcount row.2 hrow
  · rintro ⟨rfl, hpos⟩
    cases hk : b[k]? with
    | some bucket => exact ⟨(k, bucket), hk, rfl, (hcount bucket hk).1⟩
    | none =>
      rw [← h.count_eq_ncard hinj, count, ids, hk] at hpos
      simp at hpos

end Indexes

/-! ## The check -/

theorem markSeen_eq_some_iff {seen seen' : Ids} {l : List Nat} :
    markSeen seen l = some seen' ↔ (l.Nodup ∧ ∀ i ∈ l, i ∉ seen) ∧
      ∀ i, i ∈ seen' ↔ i ∈ seen ∨ i ∈ l := by
  -- On the list; what was seen grows by its head.
  induction l generalizing seen with
  | nil =>
    simp only [markSeen, Option.some.injEq, List.nodup_nil, List.not_mem_nil, false_implies,
      implies_true, and_true, or_false, true_and]
    exact ⟨fun h i => h ▸ Iff.rfl, fun h => (Std.ExtTreeSet.ext_mem fun i => h i).symm⟩
  | cons id rest ih =>
    rw [markSeen]
    split
    case isTrue hid => simp [hid]
    case isFalse hid =>
      rw [ih]
      simp only [Std.ExtTreeSet.mem_insert, compare_eq_iff_eq, List.nodup_cons, List.mem_cons,
        forall_eq_or_imp, not_or]
      grind

theorem markSeen_append (seen : Ids) (l l' : List Nat) :
    markSeen seen (l ++ l') = (markSeen seen l).bind fun seen' => markSeen seen' l' := by
  induction l generalizing seen with
  | nil => rfl
  | cons id rest ih =>
    rw [List.cons_append, markSeen, markSeen]
    split
    · rfl
    · exact ih (seen.insert id)

/-- The walk through the buckets is a walk along all their numbers. -/
theorem collect_eq_some_iff {seen seen' : Ids} {buckets : List Ids} :
    collect seen buckets = some seen' ↔ (∀ bucket ∈ buckets, bucket ≠ ∅) ∧
      markSeen seen (buckets.flatMap Std.ExtTreeSet.toList) = some seen' := by
  induction buckets generalizing seen with
  | nil => simp [collect, markSeen]
  | cons bucket rest ih =>
    rw [collect, List.flatMap_cons, markSeen_append]
    split
    case isTrue hempty => simp [Std.ExtTreeSet.isEmpty_iff.mp hempty]
    case isFalse hne =>
      rw [Std.ExtTreeSet.isEmpty_iff] at hne
      cases markSeen seen bucket.toList with
      | none => simp
      | some seen₁ => simp [ih, hne]

/-- **The check succeeds exactly if the index has every member once, and no empty bucket.** -/
theorem covers_iff (b : Buckets κ) (members : Ids) :
    b.covers members = true ↔
      b.Pruned ∧ b.listing.Nodup ∧ ∀ i, i ∈ b.listing ↔ i ∈ members := by
  have hbuckets : (b.toList.map (·.2)).flatMap Std.ExtTreeSet.toList = b.listing :=
    List.flatMap_map ..
  have hpruned : (∀ bucket ∈ b.toList.map (·.2), bucket ≠ ∅) ↔ b.Pruned := by
    simp only [List.mem_map, mem_toList_iff, forall_exists_index, and_imp]
    refine ⟨fun h k bucket hk => h bucket (k, bucket) hk rfl, ?_⟩
    rintro h bucket row hrow rfl
    exact h row.1 row.2 hrow
  have hsome : b.covers members = true ↔ collect ∅ (b.toList.map (·.2)) = some members := by
    rw [covers]
    cases collect ∅ (b.toList.map (·.2)) with
    | none => simp
    | some seen => simp
  rw [hsome, collect_eq_some_iff, markSeen_eq_some_iff, hbuckets, hpruned]
  simp only [Std.ExtTreeSet.not_mem_empty, not_false_eq_true, implies_true, and_true, false_or]
  exact and_congr_right' (and_congr_right' (forall_congr' fun i => Iff.comm))

theorem Indexes.covers (h : b.Indexes key W) (hinj : Set.InjOn Ticket.id W) {members : Ids}
    (hmem : ∀ i, i ∈ members ↔ ∃ t ∈ W, t.id = i) : b.covers members = true := by
  refine (covers_iff b members).mpr ⟨h.pruned, h.nodup_listing hinj, fun i => ?_⟩
  rw [h.mem_listing_iff, hmem]

/-- The index divides the members among its keys: no bucket is empty, no ticket stands under two
keys, and the tickets that stand under some key are the members. -/
structure Divides (b : Buckets κ) (members : Ids) : Prop where
  pruned : b.Pruned
  once : ∀ k l i, i ∈ b.ids k → i ∈ b.ids l → k = l
  exact : ∀ i, (∃ k, i ∈ b.ids k) ↔ i ∈ members

theorem covers_iff_divides {members : Ids} : b.covers members = true ↔ b.Divides members := by
  rw [covers_iff, nodup_listing_iff]
  simp only [mem_listing_iff]
  constructor
  · rintro ⟨hpruned, honce, hexact⟩
    exact ⟨hpruned, honce, hexact⟩
  · intro h
    exact ⟨h.pruned, h.once, h.exact⟩

end Buckets

/-- **A waiting room knows exactly when its views agree.** Whatever the four views contain, also if
no sequence of visits leads there, the room's own check succeeds if and only if each of the three
indexes divides the members of the flat set among its keys. -/
theorem WaitingRoom.own_check_is_exact (r : WaitingRoom) :
    r.isConsistent = true ↔
      r.byPriority.Divides r.members ∧ r.byReason.Divides r.members ∧
        r.byEntry.Divides r.members := by
  rw [isConsistent, Bool.and_eq_true, Bool.and_eq_true, Buckets.covers_iff_divides,
    Buckets.covers_iff_divides, Buckets.covers_iff_divides, and_assoc]

end Admission
