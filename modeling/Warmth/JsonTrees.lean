import Warmth.Json

namespace Warmth.Json

open Codec

namespace Value

/-- What to do at a leaf of a tree and, with the results for its parts, at a container. -/
structure Alg (α : Type) where
  leaf : Value → α
  array : List α → α
  object : List (CString × α) → α

variable {α : Type}

mutual

def fold (f : Alg α) : Value → α
  | .null => f.leaf .null
  | .bool b => f.leaf (.bool b)
  | .number d => f.leaf (.number d)
  | .string s => f.leaf (.string s)
  | .array items => f.array (foldItems f items)
  | .object members => f.object (foldMembers f members)

def foldItems (f : Alg α) : List Value → List α
  | [] => []
  | v :: rest => fold f v :: foldItems f rest

def foldMembers (f : Alg α) : List (CString × Value) → List (CString × α)
  | [] => []
  | (key, v) :: rest => (key, fold f v) :: foldMembers f rest

end

theorem fold_array (f : Alg α) (items : List Value) :
    fold f (.array items) = f.array (items.map (fold f)) := by
  have parts : foldItems f items = items.map (fold f) := by
    induction items with
    | nil => rfl
    | cons v rest ih => rw [foldItems, ih, List.map_cons]
  rw [fold, parts]

theorem fold_object (f : Alg α) (members : List (CString × Value)) :
    fold f (.object members) = f.object (members.map fun p => (p.1, fold f p.2)) := by
  have parts : foldMembers f members = members.map fun p => (p.1, fold f p.2) := by
    induction members with
    | nil => rfl
    | cons p rest ih => rw [foldMembers, ih, List.map_cons]
  rw [fold, parts]

/-- Induction over the trees, with a hypothesis for every part of a container. -/
@[induction_eliminator]
theorem tree {motive : Value → Prop} (null : motive .null) (bool : ∀ b, motive (.bool b))
    (number : ∀ d, motive (.number d)) (string : ∀ s, motive (.string s))
    (array : ∀ items, (∀ v ∈ items, motive v) → motive (.array items))
    (object : ∀ members, (∀ p ∈ members, motive p.2) → motive (.object members)) (v : Value) :
    motive v := by
  refine @Value.rec motive (fun items => ∀ v ∈ items, motive v) (fun members => ∀ p ∈ members, motive p.2)
    (fun p => motive p.2) null bool number string array object ?_ ?_ ?_ ?_ ?_ v
  · exact fun v hv => absurd hv List.not_mem_nil
  · exact fun v rest hv hrest => List.forall_mem_cons.mpr ⟨hv, hrest⟩
  · exact fun p hp => absurd hp List.not_mem_nil
  · exact fun p rest hp hrest => List.forall_mem_cons.mpr ⟨hp, hrest⟩
  · exact fun key v hv => hv

/-- The strings and the keys of a tree. -/
def strings : Value → List CString :=
  fold {
    leaf := fun
      | .string s => [s]
      | _ => []
    array := List.flatten
    object := List.flatMap fun p => p.1 :: p.2 }

def numbers : Value → List Double :=
  fold {
    leaf := fun
      | .number d => [d]
      | _ => []
    array := List.flatten
    object := List.flatMap Prod.snd }

/-- How deep containers that are not empty stand in one another. -/
def height : Value → Nat :=
  fold {
    leaf := fun _ => 0
    array := fun hs => hs.foldr (fun h n => max (h + 1) n) 0
    object := fun ps => ps.foldr (fun p n => max (p.2 + 1) n) 0 }

/-- The tree without the signs of its zeros. -/
def plain : Value → Value :=
  fold {
    leaf := fun
      | .number d => .number d.plain
      | v => v
    array := .array
    object := .object }

/-- The tree with other numbers in its leaves. -/
def mapNumbers (f : Double → Double) : Value → Value :=
  fold {
    leaf := fun
      | .number d => .number (f d)
      | v => v
    array := .array
    object := .object }

/-- The keys of every object ascend, as those of a `std::map` do. -/
def Ordered : Value → Prop :=
  fold {
    leaf := fun _ => True
    array := fun ps => ∀ p ∈ ps, p
    object := fun ps => (ps.map Prod.fst).Pairwise (· < ·) ∧ ∀ p ∈ ps, p.2 }

/-- No string and no key holds a quote. -/
def Unquoted (v : Value) : Prop := ∀ s ∈ v.strings, 34 ∉ s

instance (v : Value) : Decidable v.Unquoted := inferInstanceAs (Decidable (∀ s ∈ v.strings, 34 ∉ s))

theorem strings_array (items : List Value) : strings (.array items) = items.flatMap strings :=
  fold_array _ items

theorem strings_object (members : List (CString × Value)) :
    strings (.object members) = members.flatMap fun p => p.1 :: p.2.strings :=
  (fold_object _ members).trans (List.flatMap_map _ _ _)

theorem numbers_array (items : List Value) : numbers (.array items) = items.flatMap numbers :=
  fold_array _ items

theorem numbers_object (members : List (CString × Value)) :
    numbers (.object members) = members.flatMap fun p => p.2.numbers :=
  (fold_object _ members).trans (List.flatMap_map _ _ _)

theorem height_array (items : List Value) :
    height (.array items) = items.foldr (fun v n => max (v.height + 1) n) 0 :=
  (fold_array _ items).trans List.foldr_map

theorem height_object (members : List (CString × Value)) :
    height (.object members) = members.foldr (fun p n => max (p.2.height + 1) n) 0 :=
  (fold_object _ members).trans List.foldr_map

theorem plain_array (items : List Value) : plain (.array items) = .array (items.map plain) :=
  fold_array _ items

theorem plain_object (members : List (CString × Value)) :
    plain (.object members) = .object (members.map fun p => (p.1, p.2.plain)) :=
  fold_object _ members

theorem mapNumbers_array (f : Double → Double) (items : List Value) :
    mapNumbers f (.array items) = .array (items.map (mapNumbers f)) :=
  fold_array _ items

theorem mapNumbers_object (f : Double → Double) (members : List (CString × Value)) :
    mapNumbers f (.object members) = .object (members.map fun p => (p.1, p.2.mapNumbers f)) :=
  fold_object _ members

theorem ordered_array (items : List Value) : Ordered (.array items) ↔ ∀ v ∈ items, v.Ordered := by
  have parts : Ordered (.array items) ↔ ∀ p ∈ items.map Ordered, p := iff_of_eq (fold_array _ items)
  rw [parts, List.forall_mem_map]

theorem ordered_object (members : List (CString × Value)) :
    Ordered (.object members) ↔
      (members.map Prod.fst).Pairwise (· < ·) ∧ ∀ p ∈ members, p.2.Ordered := by
  have parts : Ordered (.object members) ↔
      ((members.map fun p => (p.1, p.2.Ordered)).map Prod.fst).Pairwise (· < ·) ∧
        ∀ p ∈ members.map fun p => (p.1, p.2.Ordered), p.2 := iff_of_eq (fold_object _ members)
  rw [parts, List.forall_mem_map, List.map_map]
  rfl

theorem unquoted_array {items : List Value} : Unquoted (.array items) ↔ ∀ v ∈ items, v.Unquoted := by
  unfold Unquoted
  simp only [strings_array, List.mem_flatMap, forall_exists_index, and_imp]
  exact ⟨fun h v hv s hs => h s v hv hs, fun h s v hv hs => h v hv s hs⟩

theorem unquoted_object {members : List (CString × Value)} :
    Unquoted (.object members) ↔ ∀ p ∈ members, 34 ∉ p.1 ∧ p.2.Unquoted := by
  unfold Unquoted
  simp only [strings_object, List.mem_flatMap, forall_exists_index, and_imp]
  constructor
  · intro h p hp
    exact ⟨h _ p hp List.mem_cons_self, fun s hs => h s p hp (List.mem_cons_of_mem _ hs)⟩
  · intro h s p hp hs
    rcases List.mem_cons.mp hs with rfl | hs
    · exact (h p hp).1
    · exact (h p hp).2 s hs

theorem mem_setKey {key : CString} {v : Value} {o : List (CString × Value)} {p : CString × Value}
    (h : p ∈ setKey key v o) : p = (key, v) ∨ p ∈ o := by
  induction o with
  | nil => exact Or.inl (List.mem_singleton.mp h)
  | cons q o ih =>
    rw [setKey] at h
    split at h
    next => exact List.mem_cons.mp h
    next =>
      split at h
      next same =>
        rcases List.mem_cons.mp h with new | old
        · exact Or.inl (same ▸ new)
        · exact Or.inr (List.mem_cons_of_mem q old)
      next =>
        rcases List.mem_cons.mp h with first | later
        · exact Or.inr (first ▸ List.mem_cons_self)
        · exact (ih later).imp_right (List.mem_cons_of_mem q)

theorem lookup_setKey (key k : CString) (v : Value) (o : List (CString × Value)) :
    (setKey k v o).lookup key = ([(k, v)].lookup key).or (o.lookup key) := by
  induction o with
  | nil => rw [setKey, List.lookup_nil, Option.or_none]
  | cons p o ih =>
    obtain ⟨k', w⟩ := p
    rw [setKey]
    split
    next => rw [← List.lookup_append, List.singleton_append]
    next =>
      split
      next same =>
        subst same
        cases here : key == k
        all_goals simp [List.lookup_cons, here]
      next other =>
        cases here : key == k'
        · have behind (l : List (CString × Value)) : ((k', w) :: l).lookup key = l.lookup key := by
            rw [List.lookup_cons, here]
          rw [behind, behind, ih]
        · have apart : (key == k) = false := by
            rw [beq_iff_eq.mp here]
            exact beq_false_of_ne (Ne.symm other)
          simp [List.lookup_cons, here, apart]

theorem ordered_setKey (k : CString) (v : Value) {o : List (CString × Value)}
    (h : (o.map Prod.fst).Pairwise (· < ·)) : ((setKey k v o).map Prod.fst).Pairwise (· < ·) := by
  induction o with
  | nil => exact List.pairwise_singleton _ _
  | cons p o ih =>
    obtain ⟨first, rest⟩ := List.pairwise_cons.mp h
    rw [setKey]
    split
    next before =>
      refine List.pairwise_cons.mpr ⟨fun key hkey => ?_, h⟩
      rcases List.mem_cons.mp hkey with rfl | later
      · exact before
      · exact List.lt_trans before (first key later)
    next notBefore =>
      split
      next same => exact List.pairwise_cons.mpr ⟨first, rest⟩
      next other =>
        refine List.pairwise_cons.mpr ⟨fun key hkey => ?_, ih rest⟩
        obtain ⟨q, hq, rfl⟩ := List.mem_map.mp hkey
        rcases mem_setKey hq with rfl | old
        · exact (List.le_iff_lt_or_eq.mp (List.not_lt.mp notBefore)).resolve_right (Ne.symm other)
        · exact first q.1 (List.mem_map_of_mem old)

/-- The signs of zeros are no part of a string. -/
theorem strings_plain (v : Value) : v.plain.strings = v.strings := by
  induction v with
  | array items ih =>
    rw [plain_array, strings_array, strings_array, List.flatMap_map]
    exact List.flatMap_congr ih
  | object members ih =>
    rw [plain_object, strings_object, strings_object, List.flatMap_map]
    exact List.flatMap_congr fun p hp => congrArg (p.1 :: ·) (ih p hp)
  | _ => rfl

theorem plain_eq (v : Value) : v.plain = v.mapNumbers Double.plain := by
  induction v with
  | array items ih =>
    rw [plain_array, mapNumbers_array]
    exact congrArg array (List.map_congr_left ih)
  | object members ih =>
    rw [plain_object, mapNumbers_object]
    exact congrArg object (List.map_congr_left fun p hp => congrArg (Prod.mk p.1) (ih p hp))
  | _ => rfl

theorem numbers_mapNumbers (f : Double → Double) (v : Value) :
    (v.mapNumbers f).numbers = v.numbers.map f := by
  induction v with
  | array items ih =>
    rw [mapNumbers_array, numbers_array, numbers_array, List.flatMap_map, List.map_flatMap]
    exact List.flatMap_congr ih
  | object members ih =>
    rw [mapNumbers_object, numbers_object, numbers_object, List.flatMap_map, List.map_flatMap]
    exact List.flatMap_congr ih
  | _ => rfl

theorem plain_plain (v : Value) : v.plain.plain = v.plain := by
  induction v with
  | number d => exact congrArg number (Double.plain_plain d)
  | array items ih =>
    rw [plain_array, plain_array, List.map_map]
    exact congrArg array (List.map_congr_left ih)
  | object members ih =>
    rw [plain_object, plain_object, List.map_map]
    exact congrArg object (List.map_congr_left fun p hp => congrArg (Prod.mk p.1) (ih p hp))
  | _ => rfl

end Value

/-- `int` holds a depth, and with pretty output its product with the indent. -/
def Room (indent : Int) (depth : Nat) : Prop :=
  depth ≤ kIntMax ∧ (0 ≤ indent → depth * indent ≤ kIntMax)

instance (indent : Int) (depth : Nat) : Decidable (Room indent depth) :=
  inferInstanceAs (Decidable (_ ∧ _))

theorem Room.mono {indent : Int} {m n : Nat} (h : Room indent n) (hmn : m ≤ n) : Room indent m := by
  have less : (m : Int) ≤ n := Int.ofNat_le.mpr hmn
  refine ⟨Int.le_trans less h.1, fun pretty => ?_⟩
  exact Int.le_trans (Int.mul_le_mul_of_nonneg_right less pretty) (h.2 pretty)

theorem isSome_lineBreak {indent : Int} {depth : Nat} :
    (lineBreak indent depth).isSome ↔ (0 ≤ indent → depth * indent ≤ kIntMax) := by
  unfold lineBreak
  split
  next compact => exact ⟨fun _ pretty => absurd compact (Int.not_lt.mpr pretty), fun _ => rfl⟩
  next pretty =>
    have pretty := Int.not_lt.mp pretty
    split
    next room => exact ⟨fun _ _ => room, fun _ => rfl⟩
    next full => exact ⟨fun h => absurd h Bool.false_ne_true, fun h => absurd (h pretty) full⟩

theorem deeper_eq_some {depth inner : Nat} :
    deeper depth = some inner ↔ (depth : Int) + 1 ≤ kIntMax ∧ inner = depth + 1 := by
  unfold deeper
  split
  next room =>
    rw [Option.some.injEq]
    exact ⟨fun h => ⟨room, h.symm⟩, fun h => h.2.symm⟩
  next full => exact ⟨fun h => absurd h (by simp), fun h => absurd h.1 full⟩

/-- The containers in a list have room when the deepest one has. -/
theorem room_foldr {α : Type} (f : α → Nat) (indent : Int) (depth : Nat) (xs : List α) :
    Room indent (depth + xs.foldr (fun x n => max (f x + 1) n) 0) ↔
      Room indent depth ∧ ∀ x ∈ xs, Room indent (depth + 1 + f x) := by
  induction xs with
  | nil => simp
  | cons x xs ih =>
    rw [List.foldr_cons, List.forall_mem_cons]
    generalize xs.foldr (fun x n => max (f x + 1) n) 0 = n at *
    constructor
    · intro h
      obtain ⟨here, rest⟩ := ih.mp (h.mono (by omega))
      exact ⟨here, h.mono (by omega), rest⟩
    · rintro ⟨here, first, rest⟩
      have deep := ih.mpr ⟨here, rest⟩
      rcases Nat.le_total (f x + 1) n with less | more
      · rwa [Nat.max_eq_right less]
      · rw [Nat.max_eq_left more]
        exact first.mono (by omega)

/-- One part of a container and those behind it, put together by `join`. -/
def part (indent : Int) (depth : Nat) (v : Value) (rest : Option Bytes) (join : Bytes → Bytes → Bytes → Bytes) :
    Option Bytes := do
  let inner ← deeper depth
  let gap ← lineBreak indent inner
  let item ← writeValue indent inner v
  let tail ← rest
  return join gap item tail

/-- What closes a container, when it is not empty on a line of its own. -/
def closing (indent : Int) (depth : Nat) (empty : Bool) : Option Bytes :=
  if empty then some [] else lineBreak indent depth

def enclosed (start stop : UInt8) (body close : Option Bytes) : Option Bytes := do
  let b ← body
  let c ← close
  return start :: (b ++ c ++ [stop])

section

variable {indent : Int} {depth : Nat}

theorem writeItems_cons (first : Bool) (v : Value) (rest : List Value) :
    writeItems indent depth first (v :: rest) =
      part indent depth v (writeItems indent depth false rest)
        (fun gap item tail => (if first then [] else [44]) ++ (gap ++ item ++ tail)) := by
  rw [writeItems]
  rfl

theorem writeMembers_cons (first : Bool) (key : CString) (v : Value) (rest : List (CString × Value)) :
    writeMembers indent depth first ((key, v) :: rest) =
      part indent depth v (writeMembers indent depth false rest)
        (fun gap item tail => (if first then [] else [44]) ++ (gap ++ writeEscaped key ++
          58 :: (if indent < 0 then [] else [32]) ++ item ++ tail)) := by
  rw [writeMembers]
  rfl

theorem part_eq_some {v : Value} {rest : Option Bytes} {join : Bytes → Bytes → Bytes → Bytes}
    {body : Bytes} :
    part indent depth v rest join = some body ↔
      ∃ gap item tail, (depth : Int) + 1 ≤ kIntMax ∧ lineBreak indent (depth + 1) = some gap ∧
        writeValue indent (depth + 1) v = some item ∧ rest = some tail ∧ join gap item tail = body := by
  simp only [part, Option.bind_eq_bind, Option.bind_eq_some_iff, deeper_eq_some]
  constructor
  · rintro ⟨_, ⟨room, rfl⟩, gap, hgap, item, hitem, tail, htail, whole⟩
    exact ⟨gap, item, tail, room, hgap, hitem, htail, Option.some.inj whole⟩
  · rintro ⟨gap, item, tail, room, hgap, hitem, htail, rfl⟩
    exact ⟨_, ⟨room, rfl⟩, gap, hgap, item, hitem, tail, htail, rfl⟩

theorem isSome_part {v : Value} {rest : Option Bytes} {join : Bytes → Bytes → Bytes → Bytes} :
    (part indent depth v rest join).isSome ↔
      (Room indent (depth + 1) ∧ (writeValue indent (depth + 1) v).isSome) ∧ rest.isSome := by
  rw [Option.isSome_iff_exists]
  simp only [part_eq_some]
  constructor
  · rintro ⟨body, gap, item, tail, room, hgap, hitem, htail, -⟩
    have wide := isSome_lineBreak.mp (Option.isSome_of_eq_some hgap)
    exact ⟨⟨⟨room, wide⟩, Option.isSome_of_eq_some hitem⟩, Option.isSome_of_eq_some htail⟩
  · rintro ⟨⟨room, hitem⟩, htail⟩
    obtain ⟨gap, hgap⟩ := Option.isSome_iff_exists.mp (isSome_lineBreak.mpr room.2)
    obtain ⟨item, hitem⟩ := Option.isSome_iff_exists.mp hitem
    obtain ⟨tail, htail⟩ := Option.isSome_iff_exists.mp htail
    exact ⟨_, gap, item, tail, room.1, hgap, hitem, htail, rfl⟩

theorem isSome_writeItems {first : Bool} {items : List Value} :
    (writeItems indent depth first items).isSome ↔
      ∀ v ∈ items, Room indent (depth + 1) ∧ (writeValue indent (depth + 1) v).isSome := by
  induction items generalizing first with
  | nil => exact ⟨fun _ v hv => absurd hv List.not_mem_nil, fun _ => rfl⟩
  | cons v rest ih => rw [writeItems_cons, isSome_part, ih, List.forall_mem_cons]

theorem isSome_writeMembers {first : Bool} {members : List (CString × Value)} :
    (writeMembers indent depth first members).isSome ↔
      ∀ p ∈ members, Room indent (depth + 1) ∧ (writeValue indent (depth + 1) p.2).isSome := by
  induction members generalizing first with
  | nil => exact ⟨fun _ p hp => absurd hp List.not_mem_nil, fun _ => rfl⟩
  | cons p rest ih => rw [writeMembers_cons, isSome_part, ih, List.forall_mem_cons]

theorem writeValue_array (items : List Value) :
    writeValue indent depth (.array items) =
      enclosed 91 93 (writeItems indent depth true items) (closing indent depth items.isEmpty) := by
  cases items <;> (rw [writeValue]; rfl)

theorem writeValue_object (members : List (CString × Value)) :
    writeValue indent depth (.object members) =
      enclosed 123 125 (writeMembers indent depth true members) (closing indent depth members.isEmpty) := by
  cases members <;> (rw [writeValue]; rfl)

theorem enclosed_eq_some {start stop : UInt8} {body close : Option Bytes} {t : Bytes} :
    enclosed start stop body close = some t ↔
      ∃ b c, body = some b ∧ close = some c ∧ start :: (b ++ c ++ [stop]) = t := by
  simp only [enclosed, Option.bind_eq_bind, Option.bind_eq_some_iff]
  constructor
  · rintro ⟨b, hb, c, hc, whole⟩
    exact ⟨b, c, hb, hc, Option.some.inj whole⟩
  · rintro ⟨b, c, hb, hc, rfl⟩
    exact ⟨b, hb, c, hc, rfl⟩

theorem isSome_closing (h : Room indent depth) (empty : Bool) : (closing indent depth empty).isSome := by
  unfold closing
  split
  · rfl
  · exact isSome_lineBreak.mpr h.2

theorem isSome_enclosed {α : Type} {f : α → Value} {xs : List α} {start stop : UInt8}
    {body : Option Bytes} (h : Room indent depth) (empty : Bool)
    (ih : ∀ x ∈ xs, ∀ {depth}, Room indent depth →
      ((writeValue indent depth (f x)).isSome ↔ Room indent (depth + (f x).height)))
    (hbody : body.isSome ↔
      ∀ x ∈ xs, Room indent (depth + 1) ∧ (writeValue indent (depth + 1) (f x)).isSome) :
    (enclosed start stop body (closing indent depth empty)).isSome ↔
      Room indent (depth + xs.foldr (fun x n => max ((f x).height + 1) n) 0) := by
  have parts : body.isSome ↔ ∀ x ∈ xs, Room indent (depth + 1 + (f x).height) := by
    rw [hbody]
    refine forall₂_congr fun x hx => ⟨fun deep => (ih x hx deep.1).mp deep.2, fun room => ?_⟩
    have here := room.mono (Nat.le_add_right _ _)
    exact ⟨here, (ih x hx here).mpr room⟩
  rw [room_foldr, ← parts, Option.isSome_iff_exists, Option.isSome_iff_exists]
  simp only [enclosed_eq_some]
  constructor
  · rintro ⟨t, b, c, hb, -⟩
    exact ⟨h, b, hb⟩
  · rintro ⟨-, b, hb⟩
    obtain ⟨c, hc⟩ := Option.isSome_iff_exists.mp (isSome_closing h empty)
    exact ⟨_, b, c, hb, hc, rfl⟩

/-- The writer has its way just where its deepest line break fits an `int`. -/
theorem isSome_writeValue {v : Value} (h : Room indent depth) :
    (writeValue indent depth v).isSome ↔ Room indent (depth + v.height) := by
  induction v generalizing depth with
  | array items ih =>
    rw [writeValue_array, Value.height_array]
    exact isSome_enclosed h _ ih isSome_writeItems
  | object members ih =>
    rw [writeValue_object, Value.height_object]
    exact isSome_enclosed h _ ih isSome_writeMembers
  | _ => exact iff_of_true rfl h

theorem isSome_dump (v : Value) : (v.dump indent).isSome ↔ Room indent v.height := by
  have root : Room indent 0 := by
    refine ⟨by decide, fun _ => ?_⟩
    rw [Int.natCast_zero, Int.zero_mul]
    decide
  rw [Value.dump, isSome_writeValue root, Nat.zero_add]

end

end Warmth.Json
