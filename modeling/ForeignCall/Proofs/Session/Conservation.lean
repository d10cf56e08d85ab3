import ForeignCall.Proofs.Session.Settling

/-! # Conservation of references

After every command, the references that were taken and not dropped are those that the values in
registers hold (`Session.references_conserved`): a command begins and ends with none in hand, whether
or not it succeeds (`Session.settles_execute`).
-/

namespace ForeignCall

/-- The commands that leave values alone or change them by operations on values. The others write
bytes past the operations or run foreign code. -/
def Command.isAccountable : Command → Bool
  | .poke _ _ _ | .invoke _ _ => false
  | _ => true

namespace Session

variable {α : Type} {object : Nat}

/-! ## Tuples -/

theorem settles_entryOf (request : EntryRequest) :
    Settles object 0 (entryOf request) fun entry => entry.value.references object := by
  unfold entryOf
  cases request.source with
  | literal kind literal =>
    refine (settles_bytesOf kind literal).bind fun bytes => ?_
    have boxed : Settles object 0 (perform (Value.box kind bytes)) fun value =>
        value.references object :=
      settles_perform fun _ _ made => Value.balance_new made object
    exact boxed.bind fun value =>
      settles_pure (Entry.mk request.name value) fun entry => entry.value.references object
  | register name =>
    exact (settles_copyOf name).bind fun value =>
      settles_pure (Entry.mk request.name value) fun entry => entry.value.references object

/-- Entries that are abandoned end. -/
theorem settles_abandon (made : List Entry) (error : CommandError) (given : α → Int) :
    Settles object (Value.entryReferences made object) (abandon made error) given := by
  refine (settles_emit _).bind fun _ => ?_
  rw [Value.balance_dropEntries, Int.add_right_neg]
  exact settles_throw error given

/-- Either all entries are in hand or, after a failure, none. -/
theorem settles_entriesOf (made : List Entry) (requests : List EntryRequest) :
    Settles object (Value.entryReferences made object) (entriesOf made requests) fun entries =>
      Value.entryReferences entries object := by
  induction requests generalizing made with
  | nil => exact settles_pure made fun entries => Value.entryReferences entries object
  | cons request requests ih =>
    rw [entriesOf]
    refine ((settles_entryOf request).tryCatch fun error => settles_abandon made error _).bind
      fun entry => ?_
    have next := ih (made ++ [entry])
    rwa [Value.entryReferences_append, Int.natCast_add] at next

/-- A tuple that is packed is in hand, and its entries are no more. -/
theorem settles_packed (host : Hierarchy) (entries : List Entry) (target : String)
    (answer : Answer) :
    Settles object (Value.entryReferences entries object)
      (do
        emit (Value.tuple host entries).2
        store target (← ofValue (Value.tuple host entries).1)
        return answer)
      fun _ => 0 := by
  refine (settles_emit _).bind fun _ => ?_
  have left : (Value.entryReferences entries object : Int) +
      balance (Value.tuple host entries).2 object =
        Value.resultReferences (Value.tuple host entries).1 object := by
    have balanced := Value.balance_tuple host entries object
    omega
  rw [left]
  cases (Value.tuple host entries).1 with
  | ok packed =>
    exact (settles_store target packed).bind fun _ => settles_pure answer fun _ => 0
  | error error => exact settles_throw _ _

/-! ## Commands -/

/-- A command that makes a value and stores it. -/
theorem settles_storing {make : Step Value} (target : String) (answer : Answer)
    (made : Settles object 0 make fun value => value.references object) :
    Settles object 0 (do store target (← make); return answer) fun _ => 0 :=
  made.bind fun value => (settles_store target value).bind fun _ => settles_pure answer fun _ => 0

/-- A command leaves no references in hand, whether or not it succeeds. -/
theorem settles_execute {command : Command} (accountable : command.isAccountable = true) :
    Settles object 0 (execute command) fun _ => 0 := by
  cases command with
  | zeroed target type =>
    apply settles_storing
    apply settles_ofValue
    intro value made
    rw [Value.references_zeroed made]
    rfl
  | new target type bytes =>
    apply settles_storing
    apply settles_perform
    intro value events made
    exact Value.balance_new made object
  | ofRegion target type bytes =>
    apply settles_storing
    apply settles_perform
    intro value events made
    exact Value.balance_ofRegion made object
  | void target => exact (settles_store target .void).bind fun _ => settles_pure _ _
  | box target kind literal =>
    refine (settles_bytesOf kind literal).bind fun bytes => ?_
    apply settles_storing
    apply settles_perform
    intro value events made
    exact Value.balance_new made object
  | set register place kind literal =>
    refine (settles_bytesOf kind literal).bind fun bytes => ?_
    refine (settles_update register ?_).bind fun _ => settles_pure _ _
    intro host value updated events written
    exact Value.balance_write written object
  | setBytes register place type bytes =>
    refine (settles_update register ?_).bind fun _ => settles_pure _ _
    intro host value updated events written
    exact Value.balance_write written object
  | setValue register place source =>
    refine (settles_copyOf source).bind fun copy => ?_
    have updating : Settles object 0
        (update register fun host value => value.store host place copy) fun _ => 0 := by
      apply settles_update
      intro host value updated events written
      exact Value.balance_write written object
    refine (updating.tryFinally ?_).bind fun _ => settles_pure _ _
    rw [Value.balance_dropEvents, Int.add_right_neg]
  | poke register offset bytes => contradiction
  | get register place kind =>
    refine (settles_load register).bind fun value => settles_hierarchy.bind fun host => ?_
    have read : Settles object 0 (ofValue (value.get host place kind)) fun _ => 0 :=
      settles_ofValue fun _ _ => rfl
    exact read.bind fun datum => settles_get.bind fun _ => settles_pure _ _
  | getBytes register place type length =>
    refine (settles_load register).bind fun value => settles_hierarchy.bind fun host => ?_
    have read : Settles object 0 (ofValue (value.read host place type length)) fun _ => 0 :=
      settles_ofValue fun _ _ => rfl
    exact read.bind fun bytes => settles_get.bind fun _ => settles_pure _ _
  | extract target source place =>
    refine (settles_load source).bind fun value => ?_
    apply settles_storing
    apply settles_perform
    intro part events made
    exact Value.balance_extract made object
  | copy target source => exact settles_storing target .done (settles_copyOf source)
  | move target source => exact settles_storing target .done (settles_take source)
  | drop register =>
    refine (settles_take register).bind fun value => (settles_emit _).bind fun _ => ?_
    rw [Value.balance_dropEvents, Int.add_right_neg]
    exact settles_pure _ fun _ => 0
  | info register => exact (settles_load register).bind fun value => settles_pure _ _
  | equal left right =>
    exact (settles_load left).bind fun _ => (settles_load right).bind fun _ => settles_pure _ _
  | tuple target requests byValues =>
    refine (settles_entriesOf [] requests).bind fun entries => settles_hierarchy.bind fun host => ?_
    have renamed : Value.entryReferences
        (if byValues then entries.map fun entry => ⟨none, entry.value⟩ else entries) object =
          Value.entryReferences entries object := by
      split
      · exact Value.entryReferences_rename _ entries object
      · rfl
    rw [← renamed]
    exact settles_packed host _ target _
  | configure request =>
    apply settles_quiet
    intro session
    exact ⟨rfl, rfl, rfl, rfl⟩
  | cacheNew name capacity => exact (settles_setCache name _).bind fun _ => settles_pure _ _
  | cacheClear name =>
    exact (settles_cacheOf name).bind fun cache =>
      (settles_setCache name _).bind fun _ => settles_pure _ _
  | cacheState name probes => exact (settles_cacheOf name).bind fun cache => settles_pure _ _
  | cacheGet name signature probes =>
    refine (settles_cacheOf name).bind fun cache => settles_get.bind fun session => ?_
    refine (settles_setCache name _).bind fun _ => ?_
    split
    · exact settles_pure _ _
    · exact settles_throw _ _
  | cachePin name signature =>
    exact (settles_cacheOf name).bind fun cache =>
      (settles_setCache name _).bind fun _ => settles_pure _ _
  | cacheUnpin name signature =>
    exact (settles_cacheOf name).bind fun cache =>
      (settles_setCache name _).bind fun _ => settles_pure _ _
  | invoke target request => contradiction
  | malformed register error => exact settles_throw _ _

/-! ## Runs -/

/-- A session with an object system in which nothing has happened. -/
structure IsFresh (session : Session) : Prop where
  installed : session.objects.isSome
  registers : session.registers = []
  history : session.history = []
  events : session.events = []

/-- A session between two commands, in which every reference is held by a register. -/
structure IsSettled (session : Session) : Prop where
  orderly : session.IsOrderly
  idle : session.events = []
  conserved : ∀ object, balance session.history object = session.references object

theorem IsFresh.isSettled {session : Session} (fresh : session.IsFresh) : session.IsSettled := by
  refine ⟨⟨fresh.installed, ?_⟩, fresh.events, ?_⟩
  · rw [fresh.registers]
    exact List.nodup_nil
  · intro object
    rw [references, fresh.history, fresh.registers]
    rfl

/-- One command keeps a session settled. -/
theorem IsSettled.runCommand {session : Session} {command : Command} (settled : session.IsSettled)
    (accountable : command.isAccountable = true) : (session.runCommand command).2.IsSettled := by
  rcases ran : (execute command).run session with ⟨answer, after⟩
  have result : (session.runCommand command).2 =
      { after with history := after.history ++ after.events, events := [] } := by
    rw [Session.runCommand, ran]
  have keeps : ∀ object, Settles object 0 (execute command) fun _ => 0 :=
    fun _ => settles_execute accountable
  obtain ⟨orderly, _⟩ := keeps 0 _ _ _ ran settled.orderly
  rw [result]
  refine ⟨⟨orderly.installed, orderly.distinct⟩, rfl, ?_⟩
  intro object
  obtain ⟨_, balanced⟩ := keeps object _ _ _ ran settled.orderly
  have nothing : carried (fun _ => 0) answer = 0 := by cases answer <;> rfl
  have start := settled.conserved object
  simp only [inHand, settled.idle, List.append_nil, nothing] at balanced
  simp only [references] at balanced start ⊢
  omega

/-- A run of commands keeps a session settled. -/
theorem IsSettled.run {session : Session} {commands : List Command} (settled : session.IsSettled)
    (accountable : ∀ command ∈ commands, command.isAccountable = true) :
    (session.run commands).2.IsSettled := by
  induction commands generalizing session with
  | nil => exact settled
  | cons command commands ih =>
    have first := settled.runCommand (accountable command (List.mem_cons_self ..))
    have rest := ih first fun other present => accountable other (List.mem_cons_of_mem _ present)
    exact rest

/-- The end of a settled session drops every reference. -/
theorem IsSettled.balance_finish {session : Session} (settled : session.IsSettled) (object : Nat) :
    balance (session.history ++ session.finish.events) object = 0 := by
  have sorted : registerReferences (session.registers.mergeSort fun left right =>
      decide (left.1 ≤ right.1)) object = session.references object :=
    registerReferences_perm (List.mergeSort_perm _ _) object
  have conserved := settled.conserved object
  simp only [finish, if_pos settled.orderly.installed, balance_append, balance_flatMap_dropEvents,
    sorted]
  omega

/-- Whatever commands are run, the references to an object that were taken and not dropped are those
that the values in registers hold, and none remains when the values have ended. -/
theorem references_conserved {session : Session} {commands : List Command} (fresh : session.IsFresh)
    (accountable : ∀ command ∈ commands, command.isAccountable = true) (object : Nat) :
    balance (session.run commands).2.history object = (session.run commands).2.references object ∧
      balance ((session.run commands).2.history ++ (session.run commands).2.finish.events) object =
        0 := by
  have settled := fresh.isSettled.run accountable
  exact ⟨settled.conserved object, settled.balance_finish object⟩

/-- A value that holds an object twice, a copy of it, and the end of the first. -/
def sharingCommands : List Command :=
  [.new "first" (.array 2 .anyObject) [0, 16, 0, 0, 0, 0, 0, 0, 0, 16, 0, 0, 0, 0, 0, 0],
    .copy "second" "first", .drop "first"]

theorem references_conserved_sharing :
    let after := (run { objects := some {} } sharingCommands).2
    after.history = [.retain 4096, .retain 4096, .retain 4096, .retain 4096, .release 4096,
        .release 4096] ∧
      after.references 4096 = 2 ∧ balance after.history 4096 = 2 ∧
      balance (after.history ++ after.finish.events) 4096 = 0 := by
  have fresh : IsFresh { objects := some {} } := ⟨rfl, rfl, rfl, rfl⟩
  have accountable : ∀ command ∈ sharingCommands, command.isAccountable = true := by decide
  obtain ⟨conserved, ended⟩ := references_conserved fresh accountable 4096
  have held : (run { objects := some {} } sharingCommands).2.references 4096 = 2 := by
    decide +kernel
  rw [held] at conserved
  exact ⟨by decide +kernel, held, conserved, ended⟩

end Session

end ForeignCall
