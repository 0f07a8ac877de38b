import Mathlib.Data.List.Induction
import Mathlib.Data.String.Basic
import Minicomputer.Proofs.Assembly.FirstPass

/-!
# The history of a symbol table

A symbol table is asked for things one after the other, in any order, and nothing else happens to
it.  So what it knows at any time can be read off what has been asked so far and what it has
replied: a label is what its one accepted definition made it, and whether it counts as referenced
is whether it has been resolved since.

* `SymbolTable.Request`, `SymbolTable.Reply`, `SymbolTable.serve` -- one request;
* `SymbolTable.exchanges`, `SymbolTable.serveAll` -- a sequence of them;
* `SymbolTable.Fits` -- which reply a history calls for;
* `SymbolTable.Accounts.serve` -- one request keeps a table true to its history;
* `SymbolTable.written_once` -- every reply in a history is the one that the history before it calls
  for.
-/

namespace Minicomputer
namespace SymbolTable

/-! ## Requests -/

/-- Something that a table is asked for. -/
inductive Request where
  | define (name : String) (address line : Nat)
  | resolve (name : String)
  | get (name : String)
  | unreferenced
  | size
  | isEmpty
  deriving DecidableEq, Repr

/-- What a table says to a request. -/
inductive Reply where
  | defined
  /-- There is a definition already, on that line. -/
  | refused (firstLine : Nat)
  | address (found : Option Nat)
  | symbol (found : Option Symbol)
  | labels (labels : List (String × Symbol))
  | size (count : Nat)
  | isEmpty (empty : Bool)
  deriving DecidableEq, Repr

/-- The reply to a request, and the table afterwards. -/
def serve (symbols : SymbolTable) : Request → Reply × SymbolTable
  | .define name address line =>
    match symbols.define name address line with
    | .ok symbols => (.defined, symbols)
    | .error firstLine => (.refused firstLine, symbols)
  | .resolve name => (.address (symbols.resolve name).1, (symbols.resolve name).2)
  | .get name => (.symbol (symbols.get? name), symbols)
  | .unreferenced => (.labels symbols.unreferenced, symbols)
  | .size => (.size symbols.size, symbols)
  | .isEmpty => (.isEmpty symbols.isEmpty, symbols)

/-- The table after a sequence of requests. -/
def serveAll (symbols : SymbolTable) (requests : List Request) : SymbolTable :=
  requests.foldl (fun symbols request => (symbols.serve request).2) symbols

/-- A sequence of requests, each with the reply to it. -/
def exchanges (symbols : SymbolTable) : List Request → List (Request × Reply)
  | [] => []
  | request :: requests =>
    (request, (symbols.serve request).1) :: exchanges (symbols.serve request).2 requests

theorem serveAll_concat (symbols : SymbolTable) (requests : List Request) (request : Request) :
    symbols.serveAll (requests ++ [request]) = ((symbols.serveAll requests).serve request).2 := by
  simp only [serveAll, List.foldl_append, List.foldl_cons, List.foldl_nil]

theorem exchanges_append (symbols : SymbolTable) (requests requests' : List Request) :
    symbols.exchanges (requests ++ requests') =
      symbols.exchanges requests ++ (symbols.serveAll requests).exchanges requests' := by
  induction requests generalizing symbols with
  | nil => rfl
  | cons request requests ih => exact congrArg ((request, _) :: ·) (ih _)

/-- Where a history is cut, there is a table between the two parts. -/
theorem exists_requests_of_exchanges {symbols : SymbolTable} {requests : List Request}
    {earlier later : List (Request × Reply)} {request : Request} {reply : Reply}
    (cut : symbols.exchanges requests = earlier ++ (request, reply) :: later) :
    ∃ before, symbols.exchanges before = earlier ∧
      reply = ((symbols.serveAll before).serve request).1 := by
  induction earlier generalizing symbols requests with
  | nil =>
    cases requests with
    | nil => cases cut
    | cons first rest =>
      cases cut
      exact ⟨[], rfl, rfl⟩
  | cons exchange earlier ih =>
    cases requests with
    | nil => cases cut
    | cons first rest =>
      obtain ⟨here, cut'⟩ := List.cons.inj cut
      obtain ⟨before, served, replied⟩ := ih cut'
      refine ⟨first :: before, ?_, replied⟩
      rw [exchanges, served, here]

/-! ## What a history says about a label -/

/-- Name, address and line of a definition that has been accepted. -/
def definition? : Request × Reply → Option (String × Nat × Nat)
  | (.define name address line, .defined) => some (name, address, line)
  | _ => none

/-- The definitions that have been accepted. -/
def definitions (past : List (Request × Reply)) : List (String × Nat × Nat) :=
  past.filterMap definition?

/-- A definition of the label has been accepted. -/
def Defined (past : List (Request × Reply)) (name : String) : Prop :=
  ∃ address line, (name, address, line) ∈ definitions past

/-- The label has been resolved after a definition of it had been accepted. -/
def ReferredTo (past : List (Request × Reply)) (name : String) : Prop :=
  ∃ earlier later, past = earlier ++ later ∧ Defined earlier name ∧
    ∃ reply, (.resolve name, reply) ∈ later

theorem definitions_concat (past : List (Request × Reply)) (exchange : Request × Reply) :
    definitions (past ++ [exchange]) = definitions past ++ (definition? exchange).toList := by
  rw [definitions, List.filterMap_append, List.filterMap_cons]
  cases definition? exchange <;> rfl

theorem Defined.append {past : List (Request × Reply)} {name : String} (defined : Defined past name)
    (later : List (Request × Reply)) : Defined (past ++ later) name := by
  obtain ⟨address, line, member⟩ := defined
  refine ⟨address, line, ?_⟩
  rw [definitions, List.filterMap_append]
  exact List.mem_append_left _ member

/-- Only a label that has a definition is referred to. -/
theorem ReferredTo.defined {past : List (Request × Reply)} {name : String}
    (referred : ReferredTo past name) : Defined past name := by
  obtain ⟨earlier, later, rfl, defined, -⟩ := referred
  exact defined.append later

/-- One more exchange matters if it resolves the label. -/
theorem referredTo_concat_iff {past : List (Request × Reply)} {exchange : Request × Reply}
    {name : String} :
    ReferredTo (past ++ [exchange]) name ↔
      ReferredTo past name ∨ Defined past name ∧ exchange.1 = .resolve name := by
  constructor
  · rintro ⟨earlier, later, cut, defined, reply, resolved⟩
    -- The last exchange is the last of what came later, which is not empty.
    obtain rfl | ⟨later, last, rfl⟩ := later.eq_nil_or_concat'
    · cases resolved
    rw [← List.append_assoc] at cut
    obtain ⟨rfl, same⟩ := List.append_inj' cut rfl
    obtain rfl := List.singleton_inj.mp same
    rcases List.mem_append.mp resolved with before | here
    · exact .inl ⟨earlier, later, rfl, defined, reply, before⟩
    · obtain rfl := List.mem_singleton.mp here
      exact .inr ⟨defined.append later, rfl⟩
  · rintro (⟨earlier, later, rfl, defined, reply, resolved⟩ | ⟨defined, resolves⟩)
    · exact ⟨earlier, later ++ [exchange], List.append_assoc .., defined, reply,
        List.mem_append_left _ resolved⟩
    · exact ⟨past, [exchange], rfl, defined, exchange.2,
        List.mem_singleton.mpr (Prod.ext resolves.symm rfl)⟩

/-! ## What a history calls for -/

/-- Labels are reported by line, and on one line by name. -/
def ReportedBefore (a b : String × Symbol) : Prop :=
  a.2.line < b.2.line ∨ a.2.line = b.2.line ∧ a.1 < b.1

/-- The reply to a request that a history calls for. -/
inductive Fits (past : List (Request × Reply)) : Request → Reply → Prop
  | defined {name : String} {address line : Nat} (fresh : ¬ Defined past name) :
      Fits past (.define name address line) .defined
  | refused {name : String} {address line first firstLine : Nat}
      (known : (name, first, firstLine) ∈ definitions past) :
      Fits past (.define name address line) (.refused firstLine)
  | resolved {name : String} {address line : Nat}
      (known : (name, address, line) ∈ definitions past) :
      Fits past (.resolve name) (.address (some address))
  | unresolved {name : String} (fresh : ¬ Defined past name) :
      Fits past (.resolve name) (.address none)
  | got {name : String} {address line : Nat} {referenced : Bool}
      (known : (name, address, line) ∈ definitions past)
      (flag : referenced = true ↔ ReferredTo past name) :
      Fits past (.get name) (.symbol (some ⟨address, line, referenced⟩))
  | gotNothing {name : String} (fresh : ¬ Defined past name) :
      Fits past (.get name) (.symbol none)
  | unreferenced {labels : List (String × Symbol)} (ordered : labels.Pairwise ReportedBefore)
      (exact : ∀ name symbol, (name, symbol) ∈ labels ↔
        (name, symbol.address, symbol.line) ∈ definitions past ∧ ¬ ReferredTo past name ∧
          symbol.referenced = false) :
      Fits past .unreferenced (.labels labels)
  | size : Fits past .size (.size (definitions past).length)
  | isEmpty {empty : Bool} (nothing : empty = true ↔ definitions past = []) :
      Fits past .isEmpty (.isEmpty empty)

/-- What the table knows is what the history says. -/
structure Accounts (past : List (Request × Reply)) (symbols : SymbolTable) : Prop where
  definitions : symbols.entries.map (fun (name, symbol) => (name, symbol.address, symbol.line)) =
    definitions past
  referenced : ∀ name symbol, (name, symbol) ∈ symbols.entries →
    (symbol.referenced = true ↔ ReferredTo past name)

theorem mem_markReferenced_iff {symbols : SymbolTable} {name other : String} {symbol : Symbol} :
    (other, symbol) ∈ (symbols.markReferenced name).entries ↔
      ∃ before, (other, before) ∈ symbols.entries ∧
        symbol = if other = name then { before with referenced := true } else before := by
  simp only [markReferenced, List.mem_map, Prod.exists, Prod.mk.injEq]
  constructor
  · rintro ⟨other, before, member, rfl, rfl⟩
    exact ⟨before, member, rfl⟩
  · rintro ⟨before, member, rfl⟩
    exact ⟨other, before, member, rfl, rfl⟩

theorem mem_unreferenced_iff {symbols : SymbolTable} {entry : String × Symbol} :
    entry ∈ symbols.unreferenced ↔ entry ∈ symbols.entries ∧ entry.2.referenced = false := by
  simp [unreferenced, List.mem_mergeSort]

theorem reportedBefore_iff {a b : String × Symbol} :
    reportedBefore a b = true ↔ a.2.line < b.2.line ∨ a.2.line = b.2.line ∧ a.1 ≤ b.1 := by
  simp [reportedBefore]

theorem nodup_unreferenced (symbols : SymbolTable) :
    (symbols.unreferenced.map Prod.fst).Nodup := by
  have sorted := (List.mergeSort_perm (symbols.entries.filter fun entry => !entry.2.referenced)
    reportedBefore).map Prod.fst
  exact sorted.nodup_iff.mpr (symbols.nodup.sublist (List.filter_sublist.map _))

/-- Names are distinct, so of two labels one is always reported before the other. -/
theorem pairwise_unreferenced (symbols : SymbolTable) :
    symbols.unreferenced.Pairwise ReportedBefore := by
  have sorted : symbols.unreferenced.Pairwise fun a b => reportedBefore a b = true := by
    refine List.pairwise_mergeSort ?_ ?_ _
    · intro a b c first second
      rw [reportedBefore_iff] at first second ⊢
      rcases first with first | ⟨line, first⟩
      · rcases second with second | ⟨line', -⟩
        · exact .inl (first.trans second)
        · exact .inl (line' ▸ first)
      · rcases second with second | ⟨line', second⟩
        · exact .inl (line ▸ second)
        · exact .inr ⟨line.trans line', first.trans second⟩
    · intro a b
      rw [Bool.or_eq_true, reportedBefore_iff, reportedBefore_iff]
      rcases Nat.lt_trichotomy a.2.line b.2.line with less | same | more
      · exact .inl (.inl less)
      · exact (le_total a.1 b.1).imp (fun h => .inr ⟨same, h⟩) fun h => .inr ⟨same.symm, h⟩
      · exact .inr (.inl more)
  have distinct := List.pairwise_map.mp (nodup_unreferenced symbols)
  refine (sorted.and distinct).imp fun {a b} ⟨before, different⟩ => ?_
  exact (reportedBefore_iff.mp before).imp_right
    fun ⟨line, name⟩ => ⟨line, lt_of_le_of_ne name different⟩

namespace Accounts

variable {past : List (Request × Reply)} {symbols : SymbolTable}

theorem empty : Accounts [] empty where
  definitions := rfl
  referenced := by
    intro name symbol member
    cases member

section

variable (accounts : Accounts past symbols)

include accounts

theorem mem_definitions_iff {name : String} {address line : Nat} :
    (name, address, line) ∈ SymbolTable.definitions past ↔
      ∃ symbol, symbols.get? name = some symbol ∧ symbol.address = address ∧
        symbol.line = line := by
  simp only [← accounts.definitions, List.mem_map, Prod.exists, Prod.mk.injEq,
    Source.get?_eq_some_iff]
  constructor
  · rintro ⟨name, symbol, member, rfl, rfl, rfl⟩
    exact ⟨symbol, member, rfl, rfl⟩
  · rintro ⟨symbol, member, rfl, rfl⟩
    exact ⟨name, symbol, member, rfl, rfl, rfl⟩

theorem get?_eq_none_iff_not_defined {name : String} :
    symbols.get? name = none ↔ ¬ Defined past name := by
  simp only [Defined, accounts.mem_definitions_iff]
  cases symbols.get? name with
  | none => simp
  | some symbol => simp

theorem nodup_definitions : ((SymbolTable.definitions past).map Prod.fst).Nodup := by
  rw [← accounts.definitions, List.map_map]
  exact symbols.nodup

/-- An exchange that neither defines nor resolves a label leaves everything as it is. -/
theorem concat_of_quiet {exchange : Request × Reply} (defines : definition? exchange = none)
    (resolves : ∀ name, exchange.1 ≠ .resolve name) : Accounts (past ++ [exchange]) symbols where
  definitions := by
    rw [definitions_concat, defines, accounts.definitions]
    exact (List.append_nil _).symm
  referenced := by
    intro name symbol member
    rw [referredTo_concat_iff, accounts.referenced name symbol member]
    exact (or_iff_left fun resolved => resolves name resolved.2).symm

theorem define {name : String} {address line : Nat} {next : SymbolTable}
    (defined : symbols.define name address line = .ok next) :
    Accounts (past ++ [(.define name address line, .defined)]) next := by
  obtain ⟨fresh, entries⟩ := Source.define_eq_ok_iff.mp defined
  have undefined := accounts.get?_eq_none_iff_not_defined.mp fresh
  refine ⟨?_, fun other symbol member => ?_⟩
  · rw [definitions_concat, entries, List.map_append, accounts.definitions]
    rfl
  · have same : ReferredTo (past ++ [(.define name address line, .defined)]) other ↔
        ReferredTo past other := by
      rw [referredTo_concat_iff]
      exact or_iff_left fun resolved => (nomatch resolved.2)
    rw [same]
    rw [entries, List.mem_append, List.mem_singleton] at member
    rcases member with known | new
    · exact accounts.referenced other symbol known
    · obtain ⟨rfl, rfl⟩ := Prod.mk.inj new
      exact iff_of_false Bool.false_ne_true fun referred => undefined referred.defined

theorem resolve (name : String) (reply : Reply) :
    Accounts (past ++ [(.resolve name, reply)]) (symbols.markReferenced name) := by
  refine ⟨?_, fun other symbol member => ?_⟩
  · have nothing : definition? (.resolve name, reply) = none := rfl
    rw [definitions_concat, nothing, Option.toList_none, List.append_nil, ← accounts.definitions,
      markReferenced, List.map_map]
    refine List.map_congr_left fun entry _ => ?_
    by_cases marked : entry.1 = name
    · simp [marked]
    · simp [marked]
  · obtain ⟨before, known, rfl⟩ := mem_markReferenced_iff.mp member
    have defined : Defined past other := by
      have found := Source.get?_eq_some_iff.mpr known
      exact ⟨_, _, accounts.mem_definitions_iff.mpr ⟨before, found, rfl, rfl⟩⟩
    rw [referredTo_concat_iff, ← accounts.referenced other before known]
    by_cases marked : other = name
    · subst marked
      simp [defined]
    · have apart : Request.resolve name ≠ .resolve other := fun same =>
        marked (Request.resolve.inj same).symm
      simp [marked, apart]

/-- One more request, and the table is still what its history says. -/
theorem serve (request : Request) :
    Accounts (past ++ [(request, (symbols.serve request).1)]) (symbols.serve request).2 := by
  cases request with
  | define name address line =>
    unfold SymbolTable.serve
    dsimp only
    cases defined : symbols.define name address line with
    | error firstLine => exact accounts.concat_of_quiet rfl nofun
    | ok next => exact accounts.define defined
  | resolve name => exact accounts.resolve name _
  | get name => exact accounts.concat_of_quiet rfl nofun
  | unreferenced => exact accounts.concat_of_quiet rfl nofun
  | size => exact accounts.concat_of_quiet rfl nofun
  | isEmpty => exact accounts.concat_of_quiet rfl nofun

theorem fits_define (name : String) (address line : Nat) :
    Fits past (.define name address line) (symbols.serve (.define name address line)).1 := by
  unfold SymbolTable.serve
  dsimp only
  cases defined : symbols.define name address line with
  | error firstLine =>
    -- It is refused because of what the table knows, and that is from the accepted definition.
    unfold SymbolTable.define at defined
    split at defined
    next first found =>
      cases defined
      exact .refused (accounts.mem_definitions_iff.mpr ⟨first, found, rfl, rfl⟩)
    next fresh => cases defined
  | ok next =>
    have fresh := (Source.define_eq_ok_iff.mp defined).1
    exact .defined (accounts.get?_eq_none_iff_not_defined.mp fresh)

theorem fits_unreferenced : Fits past .unreferenced (.labels symbols.unreferenced) := by
  refine .unreferenced symbols.pairwise_unreferenced fun name symbol => ?_
  rw [mem_unreferenced_iff, accounts.mem_definitions_iff]
  constructor
  · rintro ⟨member, unmarked⟩
    refine ⟨⟨symbol, Source.get?_eq_some_iff.mpr member, rfl, rfl⟩, ?_, unmarked⟩
    rw [← accounts.referenced name symbol member]
    exact ne_true_of_eq_false unmarked
  · rintro ⟨⟨⟨address, line, referenced⟩, found, rfl, rfl⟩, unreferred, unmarked⟩
    -- The symbol that is found is the one that is listed: no flag but this one suits the history.
    have member := Source.get?_eq_some_iff.mp found
    rw [← accounts.referenced name _ member, Bool.not_eq_true] at unreferred
    obtain ⟨address, line, flag⟩ := symbol
    dsimp only at unreferred unmarked member
    subst unreferred unmarked
    exact ⟨member, rfl⟩

/-- The reply is the one that the history calls for. -/
theorem fits (request : Request) : Fits past request (symbols.serve request).1 := by
  have found {name : String} {symbol : Symbol} (known : symbols.get? name = some symbol) :
      (name, symbol.address, symbol.line) ∈ SymbolTable.definitions past :=
    accounts.mem_definitions_iff.mpr ⟨symbol, known, rfl, rfl⟩
  cases request with
  | define name address line => exact accounts.fits_define name address line
  | resolve name =>
    show Fits past _ (.address ((symbols.get? name).map Symbol.address))
    cases known : symbols.get? name with
    | none => exact .unresolved (accounts.get?_eq_none_iff_not_defined.mp known)
    | some symbol => exact .resolved (found known)
  | get name =>
    show Fits past _ (.symbol (symbols.get? name))
    cases known : symbols.get? name with
    | none => exact .gotNothing (accounts.get?_eq_none_iff_not_defined.mp known)
    | some symbol =>
      have member := Source.get?_eq_some_iff.mp known
      exact .got (found known) (accounts.referenced name symbol member)
  | unreferenced => exact accounts.fits_unreferenced
  | size =>
    have count : symbols.size = (SymbolTable.definitions past).length := by
      rw [← accounts.definitions, List.length_map]
      rfl
    show Fits past _ (.size symbols.size)
    rw [count]
    exact .size
  | isEmpty =>
    refine .isEmpty ?_
    rw [← accounts.definitions, List.map_eq_nil_iff]
    exact List.isEmpty_iff

end

/-- The table after any requests is what its history says. -/
theorem exchanges (requests : List Request) :
    Accounts (SymbolTable.empty.exchanges requests) (SymbolTable.empty.serveAll requests) := by
  -- From the end, because a request is judged by those before it.
  induction requests using List.reverseRecOn with
  | nil => exact empty
  | append_singleton requests request ih =>
    rw [exchanges_append, serveAll_concat]
    exact ih.serve request

end Accounts

/-- Nothing but a definition that is accepted and the resolution of a label that is defined changes
a table. -/
theorem serve_cases (symbols : SymbolTable) (request : Request) :
    (symbols.serve request).1 = .defined ∨
      (∃ name symbol, request = .resolve name ∧ symbols.get? name = some symbol) ∨
      (symbols.serve request).2 = symbols := by
  cases request with
  | define name address line =>
    unfold serve
    dsimp only
    cases symbols.define name address line with
    | error firstLine => exact .inr (.inr rfl)
    | ok next => exact .inl rfl
  | resolve name =>
    cases known : symbols.get? name with
    | some symbol => exact .inr (.inl ⟨name, symbol, rfl, known⟩)
    | none =>
      -- Marking a label that is not there marks nothing.
      refine .inr (.inr ?_)
      have unmarked : symbols.entries.map (fun (other, symbol) =>
          (other, if other = name then { symbol with referenced := true } else symbol)) =
          symbols.entries.map id := by
        refine List.map_congr_left fun entry member => ?_
        have other : entry.1 ≠ name := fun same =>
          SymbolTable.get?_eq_none_iff.mp known (same ▸ List.mem_map_of_mem member)
        simp [other]
      obtain ⟨entries, nodup⟩ := symbols
      simpa [serve, resolve, markReferenced] using unmarked
  | get name => exact .inr (.inr rfl)
  | unreferenced => exact .inr (.inr rfl)
  | size => exact .inr (.inr rfl)
  | isEmpty => exact .inr (.inr rfl)

/-- Whatever is asked of a new table, every reply is the one that the requests and replies before it
call for: a label is what the first definition made it, which is the only one that is accepted, and
it counts as referenced if it has been resolved since.  Nothing but an accepted definition and the
resolution of a defined label changes the table. -/
theorem written_once (requests : List Request) :
    (∀ earlier request reply later,
      empty.exchanges requests = earlier ++ (request, reply) :: later →
        Fits earlier request reply) ∧
    ((definitions (empty.exchanges requests)).map Prod.fst).Nodup ∧
    ∀ request, ((empty.serveAll requests).serve request).1 = .defined ∨
      (∃ name, request = .resolve name ∧ Defined (empty.exchanges requests) name) ∨
      ((empty.serveAll requests).serve request).2 = empty.serveAll requests := by
  have accounts := Accounts.exchanges requests
  refine ⟨?_, accounts.nodup_definitions, fun request => ?_⟩
  · intro earlier request reply later cut
    obtain ⟨before, rfl, rfl⟩ := exists_requests_of_exchanges cut
    exact (Accounts.exchanges before).fits request
  · refine ((empty.serveAll requests).serve_cases request).imp_right (Or.imp_left ?_)
    rintro ⟨name, symbol, resolves, known⟩
    exact ⟨name, resolves, _, _, accounts.mem_definitions_iff.mpr ⟨symbol, known, rfl, rfl⟩⟩

/-- A label that is resolved too early does not count as referenced, and its second definition has
no effect. -/
theorem written_once_early :
    let requests : List Request := [.resolve "start", .define "start" 3 7, .define "loop" 0 2,
      .define "start" 9 12, .resolve "loop", .unreferenced]
    let earlier : List (Request × Reply) := [(.resolve "start", .address none),
      (.define "start" 3 7, .defined), (.define "loop" 0 2, .defined),
      (.define "start" 9 12, .refused 7), (.resolve "loop", .address (some 0))]
    empty.exchanges requests =
        earlier ++ (.unreferenced, .labels [("start", ⟨3, 7, false⟩)]) :: [] ∧
      Fits earlier .unreferenced (.labels [("start", ⟨3, 7, false⟩)]) := by
  intro requests earlier
  have replied : empty.exchanges requests =
      earlier ++ (.unreferenced, .labels [("start", ⟨3, 7, false⟩)]) :: [] := by
    decide +kernel
  exact ⟨replied, (written_once requests).1 earlier _ _ [] replied⟩

end SymbolTable
end Minicomputer
