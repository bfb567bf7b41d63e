import DiceOdds.Proofs.CommonType

/-
This file relates the conversions of values and types. A value converts exactly when its type does,
two conversions in a row are one, and a value stays what it is in its own type.
-/

namespace DiceOdds

namespace Value

theorem convert?_eq_ok_of_converts {value image : Value} {target : ValueType}
    (converts : value.type.Converts target) (read : value.readAs target = image) :
    value.convert? target = .ok image :=
  convert?_eq_ok_iff.2 ⟨ValueType.converts_iff.1 converts, read⟩

/-- Only the last of several readings counts. -/
theorem readAs_readAs {middle target : ValueType} (after : middle.Converts target) (value : Value) :
    (value.readAs middle).readAs target = value.readAs target := by
  cases middle with
  | integer | boolean | symbol => rw [readAs_of_tag_ne (by simp [ValueType.tag]) value]
  | vector space =>
      cases target with
      | integer | boolean | symbol => cases after
      | vector wide => cases value <;> rfl

theorem readAs_self (value : Value) : value.readAs value.type = value := by
  rcases value with _ | _ | _ | ⟨space, components⟩ <;> rfl

/-- A value converts exactly when its type does. It fails with the fault of the types, and otherwise
it gets the target type. Two conversions in a row give the same value as one, and a value stays what
it is in its own type. -/
theorem convert?_coherent :
    (∀ (value : Value) (target : ValueType), Agree Eq (fun image _ => image.type == target)
      (value.convert? target) (value.type.checkConversion target)) ∧
    (∀ (value : Value) (middle target : ValueType), value.type.Converts middle →
      middle.Converts target → ∃ image last, value.convert? middle = .ok image ∧
        image.convert? target = .ok last ∧ value.convert? target = .ok last) ∧
    ∀ value : Value, value.Built → value.convert? value.type = .ok value := by
  refine ⟨fun value target => ?_, fun value middle target before after => ?_, fun value built => ?_⟩
  · rw [convert?_eq, ValueType.checkConversion]
    split
    · next converts => exact .ok (readAs_type converts)
    · exact .error rfl
  · have ofImage : (value.readAs middle).type == middle :=
      readAs_type (ValueType.converts_iff.1 before)
    exact ⟨_, _, convert?_eq_ok_of_converts before rfl,
      convert?_eq_ok_of_converts ((ValueType.converts_congr ofImage target).2 after)
        (readAs_readAs after value),
      convert?_eq_ok_of_converts (ValueType.converts_trans before after) rfl⟩
  · have converts := ValueType.converts_self built.wellFormed.type_wellFormed
    exact convert?_eq_ok_of_converts converts value.readAs_self

/-- A symbol becomes a vector of two dimensions at once or by way of its unit vector, whatever its
mark is, and it does not convert to a space without its dimension. -/
theorem convert?_coherent_symbol :
    let symbol : Value := .symbol ⟨"a", .tick⟩
    let narrow : ValueType := .vector (.unit ⟨"a", .colon⟩)
    let wide : ValueType := .vector ⟨[(⟨"a", .tick⟩, .integer), (⟨"b", .tick⟩, .boolean)]⟩
    let other : ValueType := .vector (.unit ⟨"b", .tick⟩)
    symbol.Built ∧ symbol.type.Converts narrow ∧ narrow.Converts wide ∧
      (∃ image last, symbol.convert? narrow = .ok image ∧ image.convert? wide = .ok last ∧
        symbol.convert? wide = .ok last) ∧
      symbol.convert? symbol.type = .ok symbol ∧
      symbol.convert? other = .error (.noConversion symbol.type other) := by
  intro symbol narrow wide other
  obtain ⟨agree, compose, keep⟩ := convert?_coherent
  have built : symbol.Built := .symbol _
  have before : symbol.type.Converts narrow := rfl
  have after : narrow.Converts wide := rfl
  have refused : symbol.type.checkConversion other = .error (.noConversion symbol.type other) := rfl
  have failed := agree symbol other
  rw [refused] at failed
  obtain ⟨fault, converted, rfl⟩ := failed.exists_of_error
  exact ⟨built, before, after, compose symbol narrow wide before after, keep symbol built, converted⟩

end Value

end DiceOdds
