/-!
# Symbol tables

Where the labels of one assembly text are: for every label its address, the line that defines it,
and whether anything refers to it.

A label is defined once.  `define` refuses a second definition and reports the line of the first;
`resolve` looks an address up and marks the label as referenced, and nothing else changes a symbol.
That names are distinct is part of the type, and symbols stay in the order of their definition.
-/

namespace Minicomputer

structure Symbol where
  address : Nat
  line : Nat
  referenced : Bool
  deriving DecidableEq, Repr

/-- The labels defined so far, each once. -/
structure SymbolTable where
  entries : List (String × Symbol)
  nodup : (entries.map Prod.fst).Nodup

namespace SymbolTable

def empty : SymbolTable :=
  ⟨[], List.nodup_nil⟩

def size (symbols : SymbolTable) : Nat :=
  symbols.entries.length

def isEmpty (symbols : SymbolTable) : Bool :=
  symbols.entries.isEmpty

def get? (symbols : SymbolTable) (name : String) : Option Symbol :=
  symbols.entries.lookup name

def address? (symbols : SymbolTable) (name : String) : Option Nat :=
  (symbols.get? name).map Symbol.address

theorem get?_eq_none_iff {symbols : SymbolTable} {name : String} :
    symbols.get? name = none ↔ name ∉ symbols.entries.map Prod.fst := by
  rw [get?, List.lookup_eq_none_iff]
  simp only [bne_iff_ne, List.mem_map, not_exists, not_and]
  exact ⟨fun h entry member same => h entry member same.symm,
    fun h entry member same => h entry member same.symm⟩

/-- The table with one more label, not yet referenced; or the line that has defined it before. -/
def define (symbols : SymbolTable) (name : String) (address line : Nat) :
    Except Nat SymbolTable :=
  match fresh : symbols.get? name with
  | some first => .error first.line
  | none =>
    .ok
      { entries := symbols.entries ++ [(name, ⟨address, line, false⟩)]
        nodup := by
          rw [List.map_append, List.nodup_append]
          refine ⟨symbols.nodup, by simp, ?_⟩
          intro a ha b hb
          rw [List.map_singleton, List.mem_singleton] at hb
          subst hb
          intro same
          subst same
          exact get?_eq_none_iff.mp fresh ha }

/-- The table in which the label of that name, if there is one, counts as referenced. -/
def markReferenced (symbols : SymbolTable) (name : String) : SymbolTable where
  entries := symbols.entries.map fun (other, symbol) =>
    (other, if other = name then { symbol with referenced := true } else symbol)
  nodup := by
    rw [List.map_map]
    exact symbols.nodup

/-- The address of the label of that name, which counts as referenced from now on. -/
def resolve (symbols : SymbolTable) (name : String) : Option Nat × SymbolTable :=
  (symbols.address? name, symbols.markReferenced name)

/-- The order in which labels are reported: by line, and on one line by name. -/
def reportedBefore (a b : String × Symbol) : Bool :=
  a.2.line < b.2.line || (a.2.line == b.2.line && a.1 ≤ b.1)

/-- The labels that nothing refers to. -/
def unreferenced (symbols : SymbolTable) : List (String × Symbol) :=
  (symbols.entries.filter fun entry => !entry.2.referenced).mergeSort reportedBefore

end SymbolTable
end Minicomputer
