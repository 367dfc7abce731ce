import Mathlib.Data.List.Forall2

namespace Pertisk.Lib

/-- What a JSON text stands for; numbers are whole and not negative. -/
inductive Json
  | null
  | bool (b : Bool)
  | num (n : ℕ)
  | str (s : String)
  | arr (items : List Json)
  | obj (fields : List (String × Json))

/-- How values are written and read; those that meet `Ok` are read as they were written. -/
structure Codec (α : Type) where
  ser : α → Json
  de : Json → Option α
  Ok : α → Prop
  de_ser : ∀ a, Ok a → de (ser a) = some a
  ser_ne_null : ∀ a, ser a ≠ .null

namespace Codec

variable {α : Type} (c : Codec α)

def bool : Codec Bool where
  ser := .bool
  de
    | .bool b => some b
    | _ => none
  Ok _ := True
  de_ser _ _ := rfl
  ser_ne_null _ := nofun

def num : Codec ℕ where
  ser := .num
  de
    | .num n => some n
    | _ => none
  Ok _ := True
  de_ser _ _ := rfl
  ser_ne_null _ := nofun

def str : Codec String where
  ser := .str
  de
    | .str s => some s
    | _ => none
  Ok _ := True
  de_ser _ _ := rfl
  ser_ne_null _ := nofun

/-- Values that are written as a text. -/
def text (write : α → String) (read : String → Option α) (Ok : α → Prop)
    (h : ∀ a, Ok a → read (write a) = some a) : Codec α where
  ser a := .str (write a)
  de
    | .str s => read s
    | _ => none
  Ok := Ok
  de_ser := h
  ser_ne_null _ := nofun

theorem mapM_map {β : Type} {f : α → β} {g : β → Option α} {l : List α}
    (h : ∀ a ∈ l, g (f a) = some a) : (l.map f).mapM g = some l := by
  induction l with
  | nil => rfl
  | cons a l ih =>
    rw [List.map_cons, List.mapM_cons, h a List.mem_cons_self,
      ih (fun b hb => h b (List.mem_cons_of_mem a hb))]
    rfl

theorem mapM_none {α β : Type} {f : α → Option β} {l : List α} {a : α} (hin : a ∈ l)
    (h : f a = none) : l.mapM f = none := by
  induction l with
  | nil => cases hin
  | cons b l ih =>
    rw [List.mapM_cons]
    rcases List.mem_cons.mp hin with rfl | hin
    · rw [h]
      rfl
    · rw [ih hin]
      cases f b <;> rfl

def list : Codec (List α) where
  ser l := .arr (l.map c.ser)
  de
    | .arr items => items.mapM c.de
    | _ => none
  Ok l := ∀ a ∈ l, c.Ok a
  de_ser _ h := mapM_map (fun a ha => c.de_ser a (h a ha))
  ser_ne_null _ := nofun

/-- An object, from how its fields are written and read. -/
def struct (write : α → List (String × Json)) (read : (String → Option Json) → Option α)
    (Ok : α → Prop) (h : ∀ a, Ok a → read (fun key => (write a).lookup key) = some a) :
    Codec α where
  ser a := .obj (write a)
  de
    | .obj fields => read (fun key => fields.lookup key)
    | _ => none
  Ok := Ok
  de_ser := h
  ser_ne_null _ := nofun

/-- A field that has to be there. -/
def required : Option Json → Option α
  | none => none
  | some j => c.de j

/-- A field with a default. -/
def orDefault (default : α) : Option Json → Option α
  | none => some default
  | some j => c.de j

/-- A field that is left out when it has no value. -/
def optional : Option Json → Option (Option α)
  | none | some .null => some none
  | some j => (c.de j).map some

/-- All that an optional field has is read as it was written. -/
def OkIn (a : Option α) : Prop := ∀ b, a = some b → c.Ok b

variable {c} {a : α}

@[simp] theorem required_ser (h : c.Ok a) : c.required (some (c.ser a)) = some a := c.de_ser a h

@[simp] theorem orDefault_ser {d : α} (h : c.Ok a) :
    c.orDefault d (some (c.ser a)) = some a := c.de_ser a h

@[simp] theorem orDefault_bool (d b : Bool) : bool.orDefault d (some (.bool b)) = some b := rfl

@[simp] theorem orDefault_num (d n : ℕ) : num.orDefault d (some (.num n)) = some n := rfl

@[simp] theorem required_str (s : String) : str.required (some (.str s)) = some s := rfl

/-- A value that is left out is the default one. -/
theorem orDefault_skip {d : α} {skip : Bool} (hskip : skip = true → a = d) (h : c.Ok a) :
    c.orDefault d (if skip then none else some (c.ser a)) = some a := by
  cases skip with
  | true => exact congrArg some (hskip rfl).symm
  | false => exact c.de_ser a h

@[simp] theorem optional_map {a : Option α} (h : c.OkIn a) :
    c.optional (a.map c.ser) = some a := by
  cases a with
  | none => rfl
  | some a =>
    have hde := c.de_ser a (h a rfl)
    have hne := c.ser_ne_null a
    show c.optional (some (c.ser a)) = some (some a)
    unfold optional
    split
    · rename_i heq
      cases heq
    · rename_i heq
      exact absurd (Option.some.inj heq) hne
    · rename_i j _ heq
      cases heq
      rw [hde]
      rfl

end Codec

section fields

/-- A field in front of the others, unless it is left out. -/
def field (key : String) (value : Option Json) (rest : List (String × Json)) :
    List (String × Json) :=
  match value with
  | none => rest
  | some v => (key, v) :: rest

@[simp] theorem lookup_field (key k : String) (value : Option Json) (rest : List (String × Json)) :
    (field key value rest).lookup k =
      if k = key then value.or (rest.lookup k) else rest.lookup k := by
  cases value with
  | none => simp [field]
  | some v =>
    rw [field, List.lookup_cons]
    by_cases hk : k = key
    · simp [hk]
    · have hbeq : (k == key) = false := beq_eq_false_iff_ne.mpr hk
      simp [hk, hbeq]

theorem mem_of_lookup {α β : Type} [BEq α] [LawfulBEq α] {a : α} {b : β} {l : List (α × β)}
    (h : l.lookup a = some b) : (a, b) ∈ l := by
  obtain ⟨l₁, l₂, rfl, -⟩ := List.lookup_eq_some_iff.mp h
  exact List.mem_append_right _ List.mem_cons_self

end fields

end Pertisk.Lib
