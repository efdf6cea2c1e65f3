import Caseless.Value

/-!
# Values of plain data

Data of the usual types are values in one way: numbers that fit are integers or floats, text is a
string, bytes are a blob, and data that are absent are the plain null.
-/

namespace Caseless

/-- Types whose data are values. -/
class ToValue (α : Type) where
  /-- The value of a datum. -/
  toValue : α → Value

export ToValue (toValue)

namespace Value

/-! ### Numbers and truth values -/

instance : ToValue Bool := ⟨fun b => .scalar (.bool b)⟩

instance : ToValue Int64 := ⟨fun n => .scalar (.int n)⟩

instance : ToValue Int32 := ⟨fun n => toValue n.toInt64⟩

instance : ToValue Int16 := ⟨fun n => toValue n.toInt64⟩

instance : ToValue Int8 := ⟨fun n => toValue n.toInt64⟩

instance : ToValue UInt32 := ⟨fun n => toValue (Int64.ofNat n.toNat)⟩

instance : ToValue UInt16 := ⟨fun n => toValue (Int64.ofNat n.toNat)⟩

instance : ToValue UInt8 := ⟨fun n => toValue (Int64.ofNat n.toNat)⟩

instance : ToValue Float := ⟨fun x => .scalar (.float x)⟩

instance : ToValue Float32 := ⟨fun x => toValue x.toFloat⟩

instance : ToValue Decimal := ⟨fun d => .scalar (.decimal d)⟩

/-! ### Text and bytes -/

instance : ToValue String := ⟨fun text => .scalar (.string text)⟩

instance : ToValue ByteArray := ⟨fun bytes => .scalar (.blob bytes)⟩

/-! ### Containers -/

instance : ToValue (List Value) := ⟨fun elements => .seq .list elements⟩

instance : ToValue (Fields Value) := ⟨fun fields => .struct () fields⟩

instance {α : Type} [ToValue α] : ToValue (Option α) where
  toValue
    | some datum => toValue datum
    | none => .null

end Value
end Caseless
