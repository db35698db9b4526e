import Mathlib.Tactic.SplitIfs
import PgpInspect.Assembly

/-!
# The state of the assembly after records

The number of a record and the log do not matter for the keys: `Assembly.after` is the state that
the pass reaches, as a fold of its step. What a step can do is said once, in `advance_eq`. A record
either closes the block before it (`PacketRecord.opensBlock`) and leaves nothing of the state but
the finished keys, or it changes the open block only, by `Block.extend`. Hence the keys of a stream
that begins with such a record are the same behind any state (`keys_after_of_opensBlock`).
-/

namespace PgpInspect

namespace PacketRecord

/-- Whether a record closes the block before it: a primary key, or what is left of one that cannot
be viewed. -/
def opensBlock : PacketRecord → Bool
  | .publicKey key => !key.subkey
  | .malformed tag _ => Assembly.isPrimaryTag tag
  | _ => false

/-- The block that a record which closes the one before it opens itself. -/
def openedBlock : PacketRecord → Option Block
  | .publicKey key => some ⟨Assembly.keyOf key, .primary⟩
  | _ => none

end PacketRecord

/-- An open block after a record that does not close it. -/
def Block.extend (block : Block) : PacketRecord → Block
  | .publicKey key =>
    ⟨{ block.key with subkeys := block.key.subkeys ++ [Assembly.keyOf key] }, .newestSubkey⟩
  | .userId userId =>
    { block with key :=
      { block.key with identities := block.key.identities ++ [userId.identity] } }
  | .signature signature => (Assembly.sign block signature).1
  | .malformed tag _ => if Assembly.isKeyTag tag then { block with focus := .nothing } else block
  | .other _ => block

namespace Assembly

/-- The state after one record more. -/
def advance (assembly : Assembly) (record : PacketRecord) : Assembly := (assembly.step 0 record).1

/-- The state after records. -/
def after (assembly : Assembly) (records : List PacketRecord) : Assembly :=
  records.foldl advance assembly

/-! ## One record -/

/-- The number of a record shows in the log only. -/
theorem step_fst (assembly : Assembly) (index : Nat) (record : PacketRecord) :
    (assembly.step index record).1 = assembly.advance record := by
  unfold advance step
  cases record with
  | publicKey key => rfl
  | userId userId => rfl
  | signature signature => cases assembly.block <;> rfl
  | malformed tag reason => rfl
  | other tag => rfl

/-- A record closes the open block and may open one, or it changes the open block. -/
theorem advance_eq (assembly : Assembly) (record : PacketRecord) :
    assembly.advance record =
      if record.opensBlock then ⟨assembly.keys, record.openedBlock⟩
      else { assembly with block := assembly.block.map (Block.extend · record) } := by
  obtain ⟨closed, block⟩ := assembly
  unfold advance step
  cases record with
  | publicKey key =>
    cases hsub : key.subkey
    · simp [PacketRecord.opensBlock, PacketRecord.openedBlock, hsub]
    · cases block <;> simp [PacketRecord.opensBlock, Block.extend, hsub]
  | userId userId => cases block <;> rfl
  | signature signature => cases block <;> rfl
  | malformed tag reason =>
    by_cases hprimary : isPrimaryTag tag = true
    · simp [PacketRecord.opensBlock, PacketRecord.openedBlock, hprimary]
    · by_cases hkey : isKeyTag tag = true
      · cases block <;> simp [PacketRecord.opensBlock, Block.extend, hprimary, hkey]
      · cases block <;> simp [PacketRecord.opensBlock, Block.extend, hprimary, hkey]
  | other tag => cases block <;> rfl

/-- A record that closes the block before it leaves the finished keys of the state before. -/
theorem advance_of_opensBlock {record : PacketRecord} (h : record.opensBlock = true)
    (assembly : Assembly) : assembly.advance record = ⟨assembly.keys, record.openedBlock⟩ := by
  rw [advance_eq, if_pos h]

/-- A record that does not close the block before it changes that block only. -/
theorem advance_of_not_opensBlock {record : PacketRecord} (h : record.opensBlock = false)
    (assembly : Assembly) : assembly.advance record =
      { assembly with block := assembly.block.map (Block.extend · record) } := by
  rw [advance_eq, if_neg (by simp [h])]

/-! ## All records -/

/-- The pass reaches the state after its records. -/
theorem run_fst (assembly : Assembly) (index : Nat) (records : List PacketRecord) :
    (assembly.run index records).1 = assembly.after records := by
  induction records generalizing assembly index with
  | nil => rfl
  | cons record rest ih =>
    rw [run, after, List.foldl_cons, ← step_fst assembly index, ← after, ← ih _ (index + 1)]

/-- The assembled keys are those of the state after all records. -/
theorem assembleKeys_fst (records : List PacketRecord) :
    (assembleKeys records).1 = (({} : Assembly).after records).keys := by
  rw [← run_fst {} 0 records]
  rfl

/-- Nothing changes without records. -/
@[simp] theorem after_nil (assembly : Assembly) : assembly.after [] = assembly := rfl

/-- The first record is taken first. -/
theorem after_cons (assembly : Assembly) (record : PacketRecord) (rest : List PacketRecord) :
    assembly.after (record :: rest) = (assembly.advance record).after rest := rfl

/-- Records are taken in order. -/
theorem after_append (assembly : Assembly) (records more : List PacketRecord) :
    assembly.after (records ++ more) = (assembly.after records).after more :=
  List.foldl_append

/-- The last record is taken last. -/
theorem after_concat (assembly : Assembly) (records : List PacketRecord) (record : PacketRecord) :
    assembly.after (records ++ [record]) = (assembly.after records).advance record := by
  rw [after_append, after_cons, after_nil]

/-- Records that close no block leave the finished keys alone and open no block. -/
theorem after_of_not_opensBlock {records : List PacketRecord}
    (h : ∀ record ∈ records, record.opensBlock = false) (assembly : Assembly) :
    (assembly.after records).closed = assembly.closed ∧
      ((assembly.after records).block.isSome = assembly.block.isSome) := by
  induction records generalizing assembly with
  | nil => exact ⟨rfl, rfl⟩
  | cons record rest ih =>
    obtain ⟨hrecord, hrest⟩ := List.forall_mem_cons.mp h
    obtain ⟨hclosed, hblock⟩ := ih hrest (assembly.advance record)
    rw [after_cons, hclosed, hblock, advance_of_not_opensBlock hrecord]
    exact ⟨rfl, Option.isSome_map⟩

/-- A step does not look at the finished keys. -/
theorem advance_closed (closed closed' : List Key) (block : Option Block) (record : PacketRecord) :
    Assembly.advance ⟨closed ++ closed', block⟩ record =
      ⟨closed ++ (Assembly.advance ⟨closed', block⟩ record).closed,
        (Assembly.advance ⟨closed', block⟩ record).block⟩ := by
  rw [advance_eq, advance_eq]
  split_ifs
  · simp [keys]
  · rfl

/-- The pass does not look at the finished keys, which stay in front. -/
theorem keys_after_closed (closed closed' : List Key) (block : Option Block)
    (records : List PacketRecord) :
    (Assembly.after ⟨closed ++ closed', block⟩ records).keys =
      closed ++ (Assembly.after ⟨closed', block⟩ records).keys := by
  induction records generalizing closed' block with
  | nil => simp [keys]
  | cons record rest ih => rw [after_cons, advance_closed, ih, after_cons]

/-- Behind any state, a record that closes its block and the records after it give the keys that
they give on their own. -/
theorem keys_after_of_opensBlock {record : PacketRecord} (h : record.opensBlock = true)
    (assembly : Assembly) (rest : List PacketRecord) :
    (assembly.after (record :: rest)).keys =
      assembly.keys ++ (({} : Assembly).after (record :: rest)).keys := by
  rw [after_cons, after_cons, advance_of_opensBlock h, advance_of_opensBlock h]
  have hclosed := keys_after_closed assembly.keys [] record.openedBlock rest
  rw [List.append_nil] at hclosed
  exact hclosed

end Assembly

end PgpInspect
