import PolicyLevers.Document.State
import PolicyLevers.Proofs.CompactDocuments
import PolicyLevers.Proofs.MapLaws

/-!
# Formats that keep values

A format writes values of a type as documents and reads documents as values.  A format keeps the values
that satisfy a condition if all values that it reads satisfy it, and if it reads back what it writes for
them.  Formats of records, lists and maps keep what the formats of their parts keep.
-/

namespace PolicyLevers

set_option autoImplicit false

open Decimal (Numeral signed)
open Float.Model.UnpackedFloat (Sign)

structure DocumentFormat (α : Type) where
  toJson : α → Json
  ofJson? : Json → Option α

namespace DocumentFormat

variable {α : Type}

def text (format : DocumentFormat α) (value : α) : String := .ofList (format.toJson value).compact

def read? (format : DocumentFormat α) (text : String) : Option α := (Json.read text.toList).bind format.ofJson?

/-- Values with the property are written as documents that are read as them, and no others are read. -/
structure Keeps (format : DocumentFormat α) (valid : α → Prop) : Prop where
  sound : ∀ value, valid value → (format.toJson value).Sound
  back : ∀ value, valid value → format.ofJson? (format.toJson value) = some value
  reads : ∀ json value, format.ofJson? json = some value → valid value

variable {format : DocumentFormat α} {valid : α → Prop}

theorem Keeps.read_text (keeps : format.Keeps valid) {value : α} (holds : valid value) :
    format.read? (format.text value) = some value := by
  unfold read? text
  rw [String.toList_ofList, Json.read_compact (keeps.sound value holds), Option.bind_some,
    keeps.back value holds]

theorem Keeps.accepted (keeps : format.Keeps valid) {text : String} {value : α}
    (read : format.read? text = some value) : valid value := by
  obtain ⟨json, -, decoded⟩ := Option.bind_eq_some_iff.mp read
  exact keeps.reads json value decoded

/-- Every value that is read is written as a text that is read as the value again and written again as
the same text. -/
def Stable (format : DocumentFormat α) : Prop :=
  ∀ (text : String) (value : α), format.read? text = some value →
    format.read? (format.text value) = some value ∧
      (format.read? (format.text value)).map format.text = some (format.text value)

theorem Keeps.stable (keeps : format.Keeps valid) : format.Stable := by
  intro text value read
  have back := keeps.read_text (keeps.accepted read)
  exact ⟨back, by rw [back]; rfl⟩

/-! ## Numbers and texts -/

def number : DocumentFormat Float := ⟨Json.float, Json.float?⟩

def string : DocumentFormat String := ⟨Json.string, Json.string?⟩

def int32 : DocumentFormat Int := ⟨Json.int, Json.int32?⟩

def uint64 : DocumentFormat UInt64 := ⟨fun value => Json.int value.toNat, Json.uint64?⟩

theorem number_keeps : number.Keeps (fun value => value.isFinite = true) := by
  constructor
  · intro value finite
    obtain ⟨sign, numeral, formed, text, -⟩ := Decimal.rendered_number finite
    change (Json.float value).Sound
    unfold Json.float
    rw [if_pos finite]
    exact .number ⟨sign, numeral, formed, text⟩
  · intro value finite
    obtain ⟨sign, numeral, -, text, read⟩ := Decimal.rendered_number finite
    change (Json.float value).float? = some value
    unfold Json.float
    rw [if_pos finite, Json.float?, text, read]
    exact Option.filter_some_pos finite
  · intro json value read
    change json.float? = some value at read
    cases json <;> first | cases read | exact (Option.filter_eq_some_iff.mp read).2

theorem string_keeps : string.Keeps (fun _ => True) :=
  ⟨fun value _ => .text value, fun _ _ => rfl, fun _ _ _ => trivial⟩

theorem int_digits (value : Int) :
    (toString value).toList =
      signed (if value < 0 then .negative else .positive) (Nat.toDigits 10 value.natAbs) := by
  cases value with
  | ofNat n => exact Nat.toList_repr
  | negSucc n =>
      have text : toString (Int.negSucc n) = "-" ++ toString (n + 1) := rfl
      rw [text, String.toList_append, if_pos (by omega), Int.natAbs_negSucc]
      exact congrArg ('-' :: ·) Nat.toList_repr

theorem int_sound (value : Int) : (Json.int value).Sound := by
  let numeral : Numeral := ⟨Nat.toDigits 10 value.natAbs, [], none⟩
  have text : numeral.text = Nat.toDigits 10 value.natAbs := List.append_nil _
  have leading : numeral.whole = ['0'] ∨
      ∃ first others, numeral.whole = first :: others ∧ first ≠ '0' := by
    rcases Nat.eq_zero_or_pos value.natAbs with zero | visible
    · exact .inl (by simp only [numeral, zero]; rfl)
    · exact .inr (Decimal.digits_leading visible)
  have number := int_digits value
  rw [← text] at number
  exact .number ⟨_, numeral, ⟨Decimal.digits_all _, leading, rfl⟩, number⟩

theorem int_back (value : Int) : (Json.int value).int? = some value := by
  have number := Decimal.digits_value value.natAbs
  have digits := Decimal.digits_all value.natAbs
  unfold Json.int Json.int?
  rw [int_digits]
  cases chosen : Nat.toDigits 10 value.natAbs with
  | nil => exact absurd chosen Nat.toDigits_ne_nil
  | cons first others =>
      rw [chosen] at number digits
      have digit : first.isDigit = true := (Bool.and_eq_true_iff.mp digits).1
      by_cases below : value < 0
      · have size : -(value.natAbs : Int) = value := by omega
        rw [if_pos below]
        have visible : ¬signed .negative (first :: others) = ['-', '0'] := by
          rintro zero
          rw [(List.cons.inj zero).2] at number
          have nothing : (0 : Nat) = value.natAbs := number
          omega
        rw [signed] at visible ⊢
        simp only [if_neg visible, Decimal.readInt, Decimal.splitSign, digits, number, size]
        rfl
      · have size : (value.natAbs : Int) = value := by omega
        rw [if_neg below, signed]
        have visible : ¬first :: others = ['-', '0'] := by
          rintro zero
          rw [(List.cons.inj zero).1] at digit
          cases digit
        simp only [if_neg visible, Decimal.readInt, Decimal.split_sign_digit digit, digits, number, size]
        rfl

def IsInt32 (value : Int) : Prop := -0x80000000 ≤ value ∧ value < 0x80000000

instance (value : Int) : Decidable (IsInt32 value) := inferInstanceAs (Decidable (_ ∧ _))

theorem int32_keeps : int32.Keeps IsInt32 := by
  constructor
  · intro value _
    exact int_sound value
  · intro value inside
    change (Json.int value).int32? = some value
    unfold Json.int32?
    rw [int_back, Option.filter_some_pos]
    simpa [IsInt32] using inside
  · intro json value read
    change json.int32? = some value at read
    have inside := (Option.filter_eq_some_iff.mp read).2
    simpa [IsInt32] using inside

theorem uint64_keeps : uint64.Keeps (fun _ => True) := by
  constructor
  · intro value _
    exact int_sound value.toNat
  · intro value _
    have bound := value.toNat_lt
    change (Json.int value.toNat).uint64? = some value
    unfold Json.uint64?
    rw [int_back, Option.filter_some_pos (by simp; omega), Option.map_some, Int.toNat_natCast,
      UInt64.ofNat_toNat]
  · exact fun _ _ _ => trivial

/-! ## Lists and maps -/

section Lists

variable {β : Type} {read : β → Option α}

theorem all_back {write : α → β} {items : List α}
    (back : ∀ item ∈ items, read (write item) = some item) : (items.map write).mapM read = some items := by
  induction items with
  | nil => rfl
  | cons item items ih =>
      rw [List.map_cons, List.mapM_cons, back item (by simp),
        ih (fun item member => back item (by simp [member]))]
      rfl

theorem all_read {items : List β} {values : List α} (all : items.mapM read = some values) {value : α}
    (member : value ∈ values) : ∃ item ∈ items, read item = some value := by
  induction items generalizing values with
  | nil =>
      cases all
      cases member
  | cons item items ih =>
      rw [List.mapM_cons] at all
      obtain ⟨first, found, rest⟩ := Option.bind_eq_some_iff.mp all
      obtain ⟨others, further, same⟩ := Option.bind_eq_some_iff.mp rest
      cases same
      rcases List.mem_cons.mp member with rfl | later
      · exact ⟨item, by simp, found⟩
      · obtain ⟨origin, inside, result⟩ := ih further later
        exact ⟨origin, by simp [inside], result⟩

end Lists

def list (format : DocumentFormat α) : DocumentFormat (List α) :=
  ⟨fun items => .array (items.map format.toJson), Json.listOf? format.ofJson?⟩

theorem list_keeps {format : DocumentFormat α} {valid : α → Prop} (keeps : format.Keeps valid) :
    (list format).Keeps (fun items => ∀ item ∈ items, valid item) := by
  constructor
  · intro items holds
    refine .array ?_
    intro json member
    obtain ⟨item, inside, rfl⟩ := List.mem_map.mp member
    exact keeps.sound item (holds item inside)
  · intro items holds
    exact all_back (fun item member => keeps.back item (holds item member))
  · intro json items read item member
    obtain ⟨documents, -, all⟩ := Option.bind_eq_some_iff.mp read
    obtain ⟨document, -, found⟩ := all_read all member
    exact keeps.reads document item found

def EachValue (valid : α → Prop) (names : NameMap α) : Prop := ∀ entry ∈ names.entries, valid entry.2

instance (valid : α → Prop) [DecidablePred valid] (names : NameMap α) :
    Decidable (EachValue valid names) :=
  inferInstanceAs (Decidable (∀ entry ∈ names.entries, valid entry.2))

def map (format : DocumentFormat α) : DocumentFormat (NameMap α) :=
  ⟨NameMap.toJson format.toJson, Json.mapOf? format.ofJson?⟩

theorem members_of_record (members : List (String × Json)) :
    (Json.record members).members? = some members :=
  all_back (fun _ _ => rfl)

theorem record_sound {members : List (String × Json)}
    (each : ∀ member ∈ members, member.2.Sound) : (Json.record members).Sound := by
  refine .object ?_ ?_
  · intro member inside
    obtain ⟨origin, -, rfl⟩ := List.mem_map.mp inside
    rfl
  · intro member inside
    obtain ⟨origin, held, rfl⟩ := List.mem_map.mp inside
    exact each origin held

theorem entries_back {format : DocumentFormat α} {valid : α → Prop} (keeps : format.Keeps valid)
    {entries : List (String × α)} (each : ∀ entry ∈ entries, valid entry.2) :
    (entries.map (fun (name, value) => (name, format.toJson value))).mapM
      (fun (name, json) => (format.ofJson? json).map (fun value => (name, value))) = some entries := by
  refine all_back ?_
  intro entry member
  dsimp only
  rw [keeps.back entry.2 (each entry member)]
  rfl

theorem entries_read {format : DocumentFormat α} {valid : α → Prop} (keeps : format.Keeps valid)
    {members : List (String × Json)} {entries : List (String × α)}
    (all : members.mapM (fun (name, json) => (format.ofJson? json).map (fun value => (name, value))) =
      some entries) : EachValue valid (.ofList entries) := by
  intro entry member
  obtain ⟨origin, -, found⟩ := all_read all (SortedMap.mem_of_list member)
  obtain ⟨value, decoded, rfl⟩ := Option.map_eq_some_iff.mp found
  exact keeps.reads origin.2 value decoded

theorem map_keeps {format : DocumentFormat α} {valid : α → Prop} (keeps : format.Keeps valid) :
    (map format).Keeps (EachValue valid) := by
  constructor
  · intro names holds
    refine record_sound ?_
    intro member inside
    obtain ⟨entry, held, rfl⟩ := List.mem_map.mp inside
    exact keeps.sound entry.2 (holds entry held)
  · intro names holds
    change Json.mapOf? format.ofJson? (NameMap.toJson format.toJson names) = some names
    unfold Json.mapOf? NameMap.toJson
    rw [members_of_record, Option.bind_eq_bind, Option.bind_some]
    dsimp only
    rw [entries_back keeps holds]
    exact congrArg some (SortedMap.of_list_entries names)
  · intro json names read
    obtain ⟨members, -, rest⟩ := Option.bind_eq_some_iff.mp read
    obtain ⟨entries, all, same⟩ := Option.bind_eq_some_iff.mp rest
    cases same
    exact entries_read keeps all

/-! ## Records -/

/-- The fields among the members of a record, none of them twice. -/
theorem fields_of_members {names : List String} {members fields : List (String × Json)}
    (kept : members.filter (fun (key, _) => names.contains key) = fields)
    (distinct : (fields.map Prod.fst).Nodup) : (Json.record members).fields? names = some fields := by
  change (do
    let fields := (← (Json.record members).members?).filter (fun (key, _) => names.contains key)
    if (fields.map (·.1)).Nodup then some fields else none) = some fields
  rw [members_of_record, Option.bind_eq_bind, Option.bind_some]
  dsimp only
  rw [kept, if_pos distinct]

theorem fields_of_record {names : List String} {members : List (String × Json)}
    (keys : members.map Prod.fst = names) (distinct : names.Nodup) :
    (Json.record members).fields? names = some members := by
  refine fields_of_members (List.filter_eq_self.mpr ?_) (by rw [keys]; exact distinct)
  intro member inside
  rw [← keys]
  exact List.contains_iff_mem.mpr (List.mem_map_of_mem inside)

section Fields

variable {name other : String} {json : Json} {fields : Json.Fields} {value? : Json → Option α}

@[simp] theorem get_here : Json.Fields.get? ((name, json) :: fields) name value? = value? json := by
  simp [Json.Fields.get?, List.lookup]

@[simp] theorem get_later (different : name ≠ other) :
    Json.Fields.get? ((other, json) :: fields) name value? = fields.get? name value? := by
  simp [Json.Fields.get?, List.lookup, beq_eq_false_iff_ne.mpr different]

@[simp] theorem get_default_here (default : α) :
    Json.Fields.getD? ((name, json) :: fields) name value? default = value? json := by
  simp [Json.Fields.getD?, List.lookup]

@[simp] theorem get_default_later (different : name ≠ other) (default : α) :
    Json.Fields.getD? ((other, json) :: fields) name value? default =
      fields.getD? name value? default := by
  simp [Json.Fields.getD?, List.lookup, beq_eq_false_iff_ne.mpr different]

end Fields

theorem field_reads {format : DocumentFormat α} {valid : α → Prop} (keeps : format.Keeps valid)
    {fields : Json.Fields} {name : String} {value : α}
    (read : fields.get? name format.ofJson? = some value) : valid value := by
  obtain ⟨json, -, decoded⟩ := Option.bind_eq_some_iff.mp read
  exact keeps.reads json value decoded

theorem default_field_reads {format : DocumentFormat α} {valid : α → Prop} (keeps : format.Keeps valid)
    {fields : Json.Fields} {name : String} {default value : α} (holds : valid default)
    (read : fields.getD? name format.ofJson? default = some value) : valid value := by
  unfold Json.Fields.getD? at read
  split at read
  · exact keeps.reads _ value read
  · cases read
    exact holds

end DocumentFormat

end PolicyLevers
