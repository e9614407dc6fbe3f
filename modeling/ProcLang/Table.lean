/-! # Tables

Finite maps as lists of entries in the order in which their keys were first bound. `get?_insert`
says that binding a key changes what that key is bound to and nothing else, and `get?_getOrInsert`
that a key which is bound stays bound to what it was.
-/

namespace ProcLang

set_option autoImplicit false

structure Table (κ ν : Type) where
  entries : List (κ × ν)

namespace Table

variable {κ ν : Type} [DecidableEq κ]

instance : EmptyCollection (Table κ ν) :=
  ⟨⟨[]⟩⟩

instance : Inhabited (Table κ ν) :=
  ⟨∅⟩

def find (key : κ) : List (κ × ν) → Option ν
  | [] => none
  | (k, value) :: rest => if k = key then some value else find key rest

def put (key : κ) (value : ν) : List (κ × ν) → List (κ × ν)
  | [] => [(key, value)]
  | (k, old) :: rest => if k = key then (key, value) :: rest else (k, old) :: put key value rest

def get? (table : Table κ ν) (key : κ) : Option ν :=
  find key table.entries

/-- Binds a key, in place of what it was bound to. -/
def insert (table : Table κ ν) (key : κ) (value : ν) : Table κ ν :=
  ⟨put key value table.entries⟩

/-- Binds keys one after the other. -/
def ofList (entries : List (κ × ν)) : Table κ ν :=
  entries.foldl (fun table entry => table.insert entry.1 entry.2) ∅

/-- What a key is bound to, after it was bound to the value if it was not bound at all. -/
def getOrInsert (table : Table κ ν) (key : κ) (value : ν) : ν × Table κ ν :=
  match table.get? key with
  | some old => (old, table)
  | none => (value, table.insert key value)

@[simp] theorem get?_empty (key : κ) : (∅ : Table κ ν).get? key = none :=
  rfl

theorem find_put (key key' : κ) (value : ν) (entries : List (κ × ν)) :
    find key' (put key value entries) = if key = key' then some value else find key' entries := by
  induction entries with
  | nil => simp [put, find]
  | cons entry rest ih =>
    obtain ⟨k, old⟩ := entry
    by_cases hk : k = key
    · subst hk
      by_cases h : k = key' <;> simp [put, find, h]
    · by_cases h : k = key'
      · subst h
        simp [put, find, hk, Ne.symm hk]
      · simp [put, find, hk, h, ih]

theorem get?_insert (table : Table κ ν) (key key' : κ) (value : ν) :
    (table.insert key value).get? key' = if key = key' then some value else table.get? key' :=
  find_put key key' value table.entries

@[simp] theorem get?_insert_self (table : Table κ ν) (key : κ) (value : ν) :
    (table.insert key value).get? key = some value := by
  simp [get?_insert]

theorem getOrInsert_fst (table : Table κ ν) (key : κ) (value : ν) :
    (table.getOrInsert key value).1 = (table.get? key).getD value := by
  unfold getOrInsert
  cases table.get? key <;> rfl

theorem get?_getOrInsert (table : Table κ ν) (key key' : κ) (value : ν) :
    (table.getOrInsert key value).2.get? key' =
      if key = key' then some (table.getOrInsert key value).1 else table.get? key' := by
  unfold getOrInsert
  cases hKey : table.get? key with
  | none => exact get?_insert table key key' value
  | some old =>
    by_cases hSame : key = key'
    · subst hSame
      simp [hKey]
    · simp [hSame]

end Table

end ProcLang
