import LedgerNode.Proofs.Machine.Stepping

/-!
# The first service under a name stays

Services are registered one at a time, by a request that may be turned away or by one that must not
be, and whole tables of them are merged in. Whatever the requests and their order are, a name stays
bound to the service that came first under it.

- `Services.Registration`: a request to add services; `Services.Registration.perform` is what it
  does, and `Services.Registration.offers` the services that it offers.
- `Services.perform_eq_merge`: every request merges what it offers.
- `Services.isAccepted_perform_iff`: when a request is accepted; it changes nothing otherwise.
- `Services.find?_performAll`: after a sequence of requests a name is bound to what came first.
- `Services.first_offer_stays`: all of this together, and what it says of the built-in services and
  of merging.
-/

namespace LedgerNode

namespace Table

variable {κ ν : Type} [DecidableEq κ]

/-- The order of entries plays no part in what keys are bound to. -/
theorem find?_eq_of_perm {t u : Table κ ν} (h : t.entries.Perm u.entries) (key : κ) :
    t.find? key = u.find? key := by
  refine Option.ext fun value => ?_
  rw [find?_eq_some_iff, find?_eq_some_iff, h.mem_iff]

/-- Nothing is added under a key that is taken. -/
theorem insertNew_of_find?_eq_some {t : Table κ ν} {key : κ} {held : ν}
    (h : t.find? key = some held) (value : ν) : t.insertNew key value = t := by
  unfold insertNew
  rw [dif_neg]
  rw [h]
  exact Option.some_ne_none held

end Table

namespace Services

/-! ## Requests -/

/-- A request to add services to those registered so far. -/
inductive Registration where
  /-- Add a service if its name is free. -/
  | register (name : String) (service : Service)
  /-- Add a handler if its name is free. -/
  | registerHandler (name : String) (handler : Handler)
  /-- Add a service, whose name must be free. -/
  | tryRegister (name : String) (service : Service)
  /-- Add the services of a table whose names are free, in the order of its entries. -/
  | merge (other : Services)

/-- What is said in return. -/
inductive Registration.Reply where
  /-- Whether the service was added. -/
  | registered (added : Bool)
  /-- The service was added, or why it was not. -/
  | tried (result : Except RegistrationError Unit)
  /-- The tables have been merged. -/
  | merged

/-- Whether nothing was turned away. -/
def Registration.Reply.isAccepted : Reply → Bool
  | registered added => added
  | tried (.ok ()) => true
  | tried (.error _) => false
  | merged => true

/-- What a request does. -/
def Registration.perform : Registration → Services → Reply × Services
  | register name service, services =>
    let (services, added) := services.register name service
    (.registered added, services)
  | registerHandler name handler, services =>
    let (services, added) := services.registerHandler name handler
    (.registered added, services)
  | tryRegister name service, services =>
    match services.tryRegister name service with
    | .ok services => (.tried (.ok ()), services)
    | .error e => (.tried (.error e), services)
  | merge other, services => (.merged, services.merge other)

/-- The services after a sequence of requests. -/
def performAll (qs : List Registration) (services : Services) : Services :=
  qs.foldl (fun services q => (q.perform services).2) services

/-- The name that a request is about, unless it is about a whole table. -/
def Registration.name? : Registration → Option String
  | register name _ => some name
  | registerHandler name _ => some name
  | tryRegister name _ => some name
  | merge _ => none

/-- One service. -/
def single (name : String) (service : Service) : Services :=
  { entries := [(name, service)] }

/-- The services that a request offers. -/
def Registration.offers : Registration → Services
  | register name service => single name service
  | registerHandler name handler => single name (.extension handler)
  | tryRegister name service => single name service
  | merge other => other

/-! ## One request -/

/-- A service is added when its name is free, and nothing changes when it is not. Either way of
registering it comes to the same. -/
theorem register_cases (services : Services) (name : String) (service : Service) :
    (services.find? name = none ∧
      services.register name service = (services.merge (single name service), true) ∧
      services.tryRegister name service = .ok (services.merge (single name service))) ∨
    ((∃ held, services.find? name = some held) ∧ services.merge (single name service) = services ∧
      services.register name service = (services, false) ∧
      services.tryRegister name service = .error (.duplicateService name)) := by
  unfold register tryRegister Table.contains
  cases h : services.find? name with
  | none => exact .inl ⟨rfl, rfl, rfl⟩
  | some held => exact .inr ⟨⟨held, rfl⟩, Table.insertNew_of_find?_eq_some h service, rfl, rfl⟩

/-- A request for one service is accepted and merges the service when its name is free, and
otherwise it is turned away and changes nothing, which is what merging the service comes to then. -/
theorem perform_cases {q : Registration} {name : String} (hname : q.name? = some name)
    (services : Services) :
    (services.find? name = none ∧ (q.perform services).1.isAccepted = true ∧
      (q.perform services).2 = services.merge q.offers) ∨
    ((∃ held, services.find? name = some held) ∧ (q.perform services).1.isAccepted = false ∧
      (q.perform services).2 = services ∧ services.merge q.offers = services) := by
  cases q with
  | register _ service =>
    cases hname
    rcases register_cases services name service with ⟨hfree, h, -⟩ | ⟨htaken, hmerge, h, -⟩
    · exact .inl ⟨hfree, congrArg Prod.snd h, congrArg Prod.fst h⟩
    · exact .inr ⟨htaken, congrArg Prod.snd h, congrArg Prod.fst h, hmerge⟩
  | registerHandler _ handler =>
    cases hname
    rcases register_cases services name (.extension handler) with
      ⟨hfree, h, -⟩ | ⟨htaken, hmerge, h, -⟩
    · exact .inl ⟨hfree, congrArg Prod.snd h, congrArg Prod.fst h⟩
    · exact .inr ⟨htaken, congrArg Prod.snd h, congrArg Prod.fst h, hmerge⟩
  | tryRegister _ service =>
    cases hname
    rcases register_cases services name service with ⟨hfree, -, h⟩ | ⟨htaken, hmerge, -, h⟩
    · exact .inl ⟨hfree, by simp only [Registration.perform, h, Registration.Reply.isAccepted],
        by simp only [Registration.perform, h, Registration.offers]⟩
    · exact .inr ⟨htaken, by simp only [Registration.perform, h, Registration.Reply.isAccepted],
        by simp only [Registration.perform, h], hmerge⟩
  | merge => cases hname

/-- Every request merges what it offers. -/
theorem perform_eq_merge (q : Registration) (services : Services) :
    (q.perform services).2 = services.merge q.offers := by
  cases hname : q.name? with
  | none =>
    cases q with
    | merge => rfl
    | _ => cases hname
  | some name =>
    rcases perform_cases hname services with ⟨-, -, h⟩ | ⟨-, -, h, hmerge⟩
    · exact h
    · rw [h, hmerge]

/-- A request is accepted exactly when its name is free, and changes nothing otherwise. -/
theorem isAccepted_perform_iff (q : Registration) (services : Services) :
    ((q.perform services).1.isAccepted = true ↔ ∀ name ∈ q.name?, services.find? name = none) ∧
      ((q.perform services).1.isAccepted = false → (q.perform services).2 = services) := by
  cases hname : q.name? with
  | none =>
    cases q with
    | merge => exact ⟨⟨fun _ => nofun, fun _ => rfl⟩, nofun⟩
    | _ => cases hname
  | some name =>
    rcases perform_cases hname services with ⟨hfree, hreply, -⟩ | ⟨⟨held, hheld⟩, hreply, h, -⟩
    · simp [hreply, hfree]
    · simp [hreply, hheld, h]

/-! ## Sequences of requests -/

/-- After a sequence of requests a name is bound as at the start, or else to what was offered under
it first. -/
theorem find?_performAll (qs : List Registration) (services : Services) (name : String) :
    (performAll qs services).find? name =
      (services.find? name).or (qs.findSome? fun q => q.offers.find? name) := by
  induction qs generalizing services with
  | nil => exact Option.or_none.symm
  | cons q qs ih =>
    show (performAll qs (q.perform services).2).find? name = _
    rw [ih, perform_eq_merge, Table.find?_merge, List.findSome?_cons, Option.or_assoc]
    cases q.offers.find? name <;> rfl

/-- A sequence of requests binds a name exactly when it was bound at the start or one of them offers
something under it: to what it was bound to, or else to what was offered first. A request is
accepted exactly when its name is free, and changes nothing otherwise. The built-in services stay
under their names, and merging a table with itself, or another one in whatever order, twice or in
two steps, is the same. -/
theorem first_offer_stays (qs : List Registration) (services : Services) :
    (∀ name, (performAll qs services).contains name = true ↔
      services.contains name = true ∨ ∃ q ∈ qs, q.offers.contains name = true) ∧
    (∀ name, (performAll qs services).find? name =
      (services.find? name).or (qs.findSome? fun q => q.offers.find? name)) ∧
    (∀ (q : Registration) (before : Services),
      ((q.perform before).1.isAccepted = true ↔ ∀ name ∈ q.name?, before.find? name = none) ∧
      ((q.perform before).1.isAccepted = false → (q.perform before).2 = before)) ∧
    (∀ s : Syscall, (performAll qs builtins).find? s.name = some (.builtin s)) ∧
    (∀ other other' : Services, other'.entries.Perm other.entries →
      ∀ name, (services.merge other').find? name = (services.merge other).find? name) ∧
    (∀ name, (services.merge services).find? name = services.find? name) ∧
    (∀ (other : Services) (name : String),
      ((services.merge other).merge other).find? name = (services.merge other).find? name) ∧
    ∀ (other third : Services) (name : String),
      ((services.merge other).merge third).find? name =
        (services.merge (other.merge third)).find? name := by
  refine ⟨fun name => ?_, find?_performAll qs services,
    fun q before => isAccepted_perform_iff q before, fun s => ?_,
    fun other other' hperm name => ?_, fun name => ?_, fun other name => ?_,
    fun other third name => ?_⟩
  · unfold Table.contains
    rw [find?_performAll, Option.isSome_or, Bool.or_eq_true, List.isSome_findSome?,
      List.any_eq_true]
  · rw [find?_performAll, find?_builtins, ofName?_name]
    rfl
  · rw [Table.find?_merge, Table.find?_merge, Table.find?_eq_of_perm hperm]
  · rw [Table.find?_merge, Option.or_self]
  · rw [Table.find?_merge, Table.find?_merge, Option.or_assoc, Option.or_self]
  · rw [Table.find?_merge, Table.find?_merge, Table.find?_merge, Table.find?_merge, Option.or_assoc]

end Services

end LedgerNode
