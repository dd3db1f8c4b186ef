import Dalvik.Image
import Dalvik.Proofs.ClassReads

/-!
# Reading pools

A pool is read just when its table fits and every item of it is stored where the table has it. The
cursor is left where it was.
-/

namespace Dalvik

open Decode

variable {input : Bytes}

/-! ## Pools in an input -/

/-- The strings that a header places in an input. -/
structure Pool.Strings.StoredIn (input : Bytes) (header : Header) (pool : Pool.Strings) :
    Prop where
  pool_eq : pool = ofItems pool.items
  holds : Table.strings.Holds input (header.count .strings) (header.offset .strings)
    (fun _ pos item => item.StoredAt input pos) pool.items

/-- The types that a header places in an input. -/
structure Pool.Types.StoredIn (input : Bytes) (header : Header) (strings : Pool.Strings)
    (arrayLimit : Nat) (pool : Pool.Types) : Prop where
  pool_eq : pool = ofItems strings pool.items
  holds : Table.types.Holds input (header.count .types) (header.offset .types)
    (fun index pos item => item.StoredAt input strings arrayLimit index pos) pool.items

/-- The items of a table of references that a header places in an input. -/
structure Pool.References.StoredIn {α : Type} (input : Bytes) (header : Header) (table : Table)
    (storedAt : Nat → α → Prop) (pool : Pool.References α) : Prop where
  table_eq : pool.table = some table
  holds : table.Holds input (header.count table) (header.offset table) (fun _ => storedAt)
    pool.items

/-- The classes that a header places in an input. -/
structure Pool.Classes.StoredIn (input : Bytes) (header : Header) (sizes : ClassItem.Sizes)
    (pool : Pool.Classes) : Prop where
  pool_eq : pool = ofItems pool.items
  holds : Table.classes.Holds input (header.count .classes) (header.offset .classes)
    (fun _ pos item => item.StoredAt input sizes pos) pool.items

theorem Header.count_lt (header : Header) (table : Table) : header.count table < 2 ^ 32 :=
  UInt32.toNat_lt _

/-! ## Reading them -/

theorem Pool.Strings.reads_read_of_lt {count : Nat} (hcount : count < 2 ^ 32) (offset : Nat) :
    (Pool.Strings.read count offset).Reads input 0 fun _ pool => pool = ofItems pool.items ∧
      Table.strings.Holds input count offset (fun _ pos item => item.StoredAt input pos)
        pool.items := by
  refine ((reads_table StringItem.reads_readAt hcount _).bind fun items =>
    (reads_record _).bind fun _ => reads_pure (ofItems items)).congr rfl fun pos pool => ?_
  constructor
  · rintro ⟨items, hitems, _, -, rfl⟩
    exact ⟨rfl, hitems⟩
  · rintro ⟨hpool, hitems⟩
    exact ⟨pool.items, hitems, (), trivial, hpool⟩

/-- A pool of strings is given by its items. -/
theorem Pool.Strings.run_read_eq {count offset : Nat} (hcount : count < 2 ^ 32) {scan : Scan}
    {items : Array StringItem}
    (h : (run (Pool.Strings.read count offset) input scan).1.map Pool.Strings.items = .ok items) :
    run (Pool.Strings.read count offset) input scan =
      (.ok (ofItems items), (run (Pool.Strings.read count offset) input scan).2) := by
  obtain ⟨pool, hrun, rfl⟩ := exists_run_of_map h
  obtain ⟨-, hpool, -⟩ := (reads_read_of_lt hcount offset scan pool _).mp ⟨_, hrun⟩
  rw [← hpool]
  exact hrun

theorem Pool.Strings.reads_read (header : Header) :
    (Pool.Strings.read (header.count .strings) (header.offset .strings)).Reads input 0
      fun _ pool => pool.StoredIn input header :=
  (reads_read_of_lt (header.count_lt .strings) _).congr rfl fun _ _ =>
    ⟨fun ⟨hpool, hitems⟩ => ⟨hpool, hitems⟩, fun ⟨hpool, hitems⟩ => ⟨hpool, hitems⟩⟩

theorem Pool.Types.reads_read_of_lt (strings : Pool.Strings) (arrayLimit : Nat) {count : Nat}
    (hcount : count < 2 ^ 32) (offset : Nat) :
    (Pool.Types.read strings arrayLimit count offset).Reads input 0 fun _ pool =>
      pool = ofItems strings pool.items ∧
        Table.types.Holds input count offset
          (fun index pos item => item.StoredAt input strings arrayLimit index pos) pool.items := by
  refine ((reads_table (TypeItem.reads_readAt strings arrayLimit) hcount _).bind
    fun items => (reads_record _).bind fun _ => reads_pure (ofItems strings items)).congr rfl
      fun pos pool => ?_
  constructor
  · rintro ⟨items, hitems, _, -, rfl⟩
    exact ⟨rfl, hitems⟩
  · rintro ⟨hpool, hitems⟩
    exact ⟨pool.items, hitems, (), trivial, hpool⟩

theorem Pool.Types.reads_read (header : Header) (strings : Pool.Strings) (arrayLimit : Nat) :
    (Pool.Types.read strings arrayLimit (header.count .types) (header.offset .types)).Reads input 0
      fun _ pool => pool.StoredIn input header strings arrayLimit :=
  (reads_read_of_lt strings arrayLimit (header.count_lt .types) _).congr rfl fun _ _ =>
    ⟨fun ⟨hpool, hitems⟩ => ⟨hpool, hitems⟩, fun ⟨hpool, hitems⟩ => ⟨hpool, hitems⟩⟩

theorem Pool.References.reads_read {α : Type} {table : Table} {item : Nat → Decode α}
    {storedAt : Nat → α → Prop}
    (h : ∀ index, (item index).Reads input table.itemSize storedAt) (header : Header) :
    (Pool.References.read table (header.count table) (header.offset table) item).Reads input 0
      fun _ pool => pool.StoredIn input header table storedAt := by
  refine ((reads_table h (header.count_lt table) _).bind fun items => (reads_record _).bind fun _ =>
    reads_pure { table := some table, items : Pool.References α }).congr rfl fun pos pool => ?_
  constructor
  · rintro ⟨items, hitems, _, -, rfl⟩
    exact ⟨rfl, hitems⟩
  · rintro ⟨htable, hitems⟩
    refine ⟨pool.items, hitems, (), trivial, ?_⟩
    rw [← htable]

theorem Pool.Classes.reads_read {pools : ClassItem.Pools} (hfields : pools.fields.size ≤ 2 ^ 32)
    (hmethods : pools.methods.size ≤ 2 ^ 32) (header : Header) :
    (Pool.Classes.read pools (header.count .classes) (header.offset .classes)).Reads input 0
      fun _ pool => pool.StoredIn input header pools.sizes := by
  refine ((reads_table (ClassItem.reads_readAt hfields hmethods) (header.count_lt .classes) _).bind
    fun items => ((reads_forM_warn .redefined (ofItems items).redefinitions).bind fun _ =>
      (reads_record _).bind fun _ => reads_pure (ofItems items))).congr rfl fun pos pool => ?_
  constructor
  · rintro ⟨items, hitems, _, -, _, -, rfl⟩
    exact ⟨rfl, hitems⟩
  · rintro ⟨hpool, hitems⟩
    exact ⟨pool.items, hitems, (), trivial, (), trivial, hpool⟩

end Dalvik
