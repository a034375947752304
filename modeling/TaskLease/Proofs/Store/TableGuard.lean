import TaskLease.Command.Application
import TaskLease.Proofs.Store.SqlExchange

/-!
# Statements about a table

The name of a table is put into the texts of statements as it is. It is checked once, before anything is sent.
`Connected` is what can be reached from there: a store behind a name that was let through, and whatever is asked of it
afterwards. All that such a store sends are statements of its dialect (`Connected.speaks`), and their texts are put
together from fixed texts and the name (`woven_texts`). So a character that is in no name of a table is in a statement
only where a fixed text has it (`foreign_of_woven`).

Behind a name that is not let through there is no such store, and nothing is ever sent: `table_names_guard`.
-/

namespace TaskLease

namespace Sql

/-- What becomes of a table whose name is not let through. -/
def nameFault (table : String) : StoreFault := .query s!"invalid table name '{table}'"

/-- The texts of the statements of a dialect, by the table that they are about. -/
def Dialect.texts (dialect : Dialect) : List (String → String) :=
  [Operation.insert, .update, .unlock, .extend].map (fun op table => dialect.operationText table op) ++
    [dialect.findText, dialect.createText, fun _ => probe.sql]

/-- A text that is put together from fixed texts and a name. -/
inductive Woven : (String → String) → Prop where
  | fixed (text : String) : Woven fun _ => text
  | name : Woven fun table => table
  | append {first second : String → String} :
    Woven first → Woven second → Woven fun table => first table ++ second table

/-- The characters of a text that are in no name of a table, in their order. -/
def foreign (text : String) : List Char := text.toList.filter fun c => ¬ TableChar c

/-! ## Texts -/

section

variable {table : String} {text : String → String}

theorem woven_operationText (dialect : Dialect) (op : Operation) : Woven fun table => dialect.operationText table op := by
  cases dialect <;> cases op <;> repeat' first | exact .fixed _ | exact .name | apply Woven.append

theorem woven_findText (dialect : Dialect) : Woven dialect.findText := by
  cases dialect <;> repeat' first | exact .fixed _ | exact .name | apply Woven.append

theorem woven_createText (dialect : Dialect) : Woven dialect.createText := by
  cases dialect <;> repeat' first | exact .fixed _ | exact .name | apply Woven.append

theorem woven_texts (dialect : Dialect) : ∀ text ∈ dialect.texts, Woven text := by
  intro text member
  rcases List.mem_append.mp member with operation | other
  · obtain ⟨op, -, rfl⟩ := List.mem_map.mp operation
    exact woven_operationText dialect op
  · simp only [List.mem_cons, List.not_mem_nil, or_false] at other
    rcases other with rfl | rfl | rfl
    · exact woven_findText dialect
    · exact woven_createText dialect
    · exact .fixed _

theorem foreign_append (first second : String) : foreign (first ++ second) = foreign first ++ foreign second := by
  rw [foreign, String.toList_append, List.filter_append]
  rfl

theorem foreign_of_name (accepted : TableName table) : foreign table = [] := by
  rw [foreign, List.filter_eq_nil_iff]
  intro c member
  simpa using accepted.tableChar c member

/-- The name of a table brings no foreign character into a text: those that are there are there without it. -/
theorem foreign_of_woven (woven : Woven text) (accepted : TableName table) : foreign (text table) = foreign (text "") := by
  induction woven with
  | fixed text => rfl
  | name => exact foreign_of_name accepted
  | append first second first_same second_same => rw [foreign_append, foreign_append, first_same, second_same]

end

/-! ## Stores behind a table -/

/-- Something that is asked of a store. -/
inductive Ask where
  | perform (holder : String) (op : Operation) (config : LockConfig)
  | find (name : String)
  | checkHealth
  | prepare

/-- The store after something was asked of it. -/
def Ask.serve (now : Instant) (b : Backend) : Ask → Backend
  | .perform holder op config => (b.perform holder now op config).2
  | .find name => (b.find now name).2
  | .checkHealth => (b.checkHealth now).2
  | .prepare => b.prepare.2

/-- The statement by which something is asked. -/
def Ask.statement (dialect : Dialect) (table : String) : Ask → Statement
  | .perform holder op config => dialect.operation table holder op config
  | .find name => dialect.find table name
  | .checkHealth => probe
  | .prepare => dialect.create table

/-- A store behind a table, and anything that was asked of it, whatever the database replied. -/
inductive Connected (dialect : Dialect) (table : String) : Backend → Prop where
  | connect {now : Instant} {replies : List Reply} {b : Backend} :
    (Backend.sql dialect table { replies }).connect now = (.ok (), b) → Connected dialect table b
  | ask {b : Backend} (now : Instant) (ask : Ask) : Connected dialect table b → Connected dialect table (ask.serve now b)

/-- The statements that a store has sent. -/
def statements : Backend → List Statement
  | .sql _ _ wire => wire.sent
  | _ => []

/-- Settings choose a table of a database. -/
def Chosen (dialect : Dialect) (table : String) (s : StoreSettings) : Prop :=
  match dialect with
  | .postgresql => s.kind = .postgresql ∧ s.postgresql.table = table
  | .mysql => s.kind = .mysql ∧ s.mysql.table = table

section

variable {dialect : Dialect} {table : String} {b : Backend}

theorem Ask.statement_texts (ask : Ask) : ∃ text ∈ dialect.texts, (ask.statement dialect table).sql = text table := by
  cases ask with
  | perform holder op config =>
    refine ⟨fun table => dialect.operationText table op, List.mem_append_left _ (List.mem_map_of_mem ?_), rfl⟩
    cases op <;> simp
  | find name => exact ⟨dialect.findText, by simp [Dialect.texts], rfl⟩
  | checkHealth => exact ⟨fun _ => probe.sql, by simp [Dialect.texts], rfl⟩
  | prepare => exact ⟨dialect.createText, by simp [Dialect.texts], rfl⟩

/-- Whatever is asked, one statement is sent. -/
theorem Ask.serve_sql (ask : Ask) (now : Instant) (wire : Wire) :
    ask.serve now (.sql dialect table wire) =
      .sql dialect table { replies := wire.replies.tail, sent := wire.sent ++ [ask.statement dialect table] } := by
  cases ask <;> simp only [serve, Backend.perform, Backend.find, Backend.checkHealth, Backend.prepare, execute_eq] <;> rfl

theorem connect_of_name (accepted : TableName table) (now : Instant) (wire : Wire) :
    (Backend.sql dialect table wire).connect now = (Backend.sql dialect table wire).checkHealth now := by
  simp only [Backend.connect, checkTable_eq_ok_iff.mpr accepted]

theorem connect_of_not (wrong : ¬ TableName table) (now : Instant) (wire : Wire) :
    (Backend.sql dialect table wire).connect now = (.error (nameFault table), .sql dialect table wire) := by
  simp only [Backend.connect, checkTable_of_not wrong]
  rfl

/-- Whoever has connected has asked whether the database is there. -/
theorem name_of_connect {now : Instant} {wire : Wire} (there : (Backend.sql dialect table wire).connect now = (.ok (), b)) :
    TableName table ∧ b = Ask.checkHealth.serve now (.sql dialect table wire) := by
  by_cases accepted : TableName table
  · rw [connect_of_name accepted] at there
    exact ⟨accepted, (congrArg Prod.snd there).symm⟩
  · rw [connect_of_not accepted] at there
    cases there

/-- There is a store behind every name of a table, and behind nothing else. -/
theorem exists_connected_iff : (∃ b, Connected dialect table b) ↔ TableName table := by
  constructor
  · rintro ⟨b, connected⟩
    induction connected with
    | connect there => exact (name_of_connect there).1
    | ask now ask connected accepted => exact accepted
  · intro accepted
    exact ⟨_, .connect (connect_of_name accepted .epoch { replies := [] })⟩

/-- A store behind a table that has sent nothing but statements of its dialect about that table. -/
def Speaks (dialect : Dialect) (table : String) (b : Backend) : Prop :=
  (∃ wire, b = .sql dialect table wire) ∧ ∀ s ∈ statements b, ∃ text ∈ dialect.texts, s.sql = text table

theorem Speaks.serve (speaks : Speaks dialect table b) (now : Instant) (ask : Ask) :
    Speaks dialect table (ask.serve now b) := by
  obtain ⟨⟨wire, rfl⟩, before⟩ := speaks
  rw [Speaks, ask.serve_sql]
  refine ⟨⟨_, rfl⟩, fun s member => ?_⟩
  rcases List.mem_append.mp member with earlier | last
  · exact before s earlier
  · rw [List.mem_singleton.mp last]
    exact ask.statement_texts

theorem Connected.speaks (connected : Connected dialect table b) : Speaks dialect table b := by
  induction connected with
  | @connect now replies b there =>
    -- Checking the name sends nothing; the first statement is the one that asks whether the database is there.
    have silent : Speaks dialect table (.sql dialect table { replies }) := ⟨⟨_, rfl⟩, by simp [statements]⟩
    obtain ⟨-, rfl⟩ := name_of_connect there
    exact silent.serve now .checkHealth
  | ask now ask connected ih => exact ih.serve now ask

/-! ## Settings -/

variable {s : StoreSettings} {around : Surroundings}

theorem backend_of_chosen (chosen : Chosen dialect table s) (files : FileTree) :
    s.kind ≠ .file ∧ s.backend files = (.ok (.sql dialect table {}), files) := by
  cases dialect with
  | postgresql =>
    obtain ⟨kind, rfl⟩ := chosen
    simp [StoreSettings.backend, kind]
  | mysql =>
    obtain ⟨kind, rfl⟩ := chosen
    simp [StoreSettings.backend, kind]

/-- Settings that choose a table lead to what connecting comes to, if the database can be reached. -/
theorem connect_of_chosen (chosen : Chosen dialect table s) (around : Surroundings) (files : FileTree) :
    s.connect around files =
      if around.reachable then
        let reply := (Backend.sql dialect table {}).connect around.now
        (reply.1.map fun () => reply.2, reply.2.files files)
      else (.error (.connection "the server can not be reached"), files) := by
  obtain ⟨other, behind⟩ := backend_of_chosen chosen files
  simp only [StoreSettings.connect, behind, other, false_or]

theorem connected_of_settings (chosen : Chosen dialect table s) {files : FileTree}
    (there : (s.connect around files).1 = .ok b) : Connected dialect table b := by
  rw [connect_of_chosen chosen] at there
  split at there
  · cases answer : (Backend.sql dialect table {}).connect around.now with
    | mk reply after =>
      rw [answer] at there
      cases reply with
      | error fault => cases there
      | ok =>
        obtain rfl := Except.ok.inj there
        exact .connect answer
  · cases there

theorem settings_of_not (chosen : Chosen dialect table s) (wrong : ¬ TableName table) (files : FileTree) :
    s.connect around files =
      (.error (if around.reachable then nameFault table else .connection "the server can not be reached"), files) := by
  rw [connect_of_chosen chosen, connect_of_not wrong]
  split <;> rfl

end

/-- A name of a table guards the statements that it is put into. -/
structure Guarded (table : String) : Prop where
  accepted : checkTable table = .ok () ↔ TableName table
  refused : ¬ TableName table → checkTable table = .error (nameFault table)
  /-- No other text becomes part of a store. -/
  connected : ∀ dialect, (∃ b, Connected dialect table b) ↔ TableName table
  /-- Connecting to another text is refused, with nothing sent. -/
  silent : ¬ TableName table → ∀ dialect now wire,
    (Backend.sql dialect table wire).connect now = (.error (nameFault table), .sql dialect table wire)
  /-- Settings come to a store in no other way. -/
  settings : ∀ dialect s, Chosen dialect table s → ∀ around files,
    (∀ b, (s.connect around files).1 = .ok b → Connected dialect table b) ∧
    (¬ TableName table → s.connect around files =
      (.error (if around.reachable then nameFault table else .connection "the server can not be reached"), files))
  characters : TableName table → ∀ c ∈ table.toList, TableChar c
  /-- All statements are put together from fixed texts and the name, which brings no foreign character with it. -/
  plain : ∀ dialect : Dialect, ∀ text ∈ dialect.texts,
    Woven text ∧ (TableName table → foreign (text table) = foreign (text ""))
  /-- No other statements are sent. -/
  sent : ∀ dialect b, Connected dialect table b →
    ∀ s ∈ statements b, ∃ text ∈ dialect.texts, s.sql = text table ∧ foreign s.sql = foreign (text "")

end Sql

/-- The names of tables that are let through are one or more identifiers with dots between them. What is sent to a
database has no characters from them but letters and digits of ASCII, underscores and dots. Nothing is sent about any
other name, and there is no store behind it. -/
theorem table_names_guard (table : String) : Sql.Guarded table where
  accepted := Sql.checkTable_eq_ok_iff
  refused := Sql.checkTable_of_not
  connected _ := Sql.exists_connected_iff
  silent wrong _ := Sql.connect_of_not wrong
  settings _ _ chosen _ _ := ⟨fun _ => Sql.connected_of_settings chosen, fun wrong => Sql.settings_of_not chosen wrong _⟩
  characters := Sql.TableName.tableChar
  plain dialect text member :=
    have woven := Sql.woven_texts dialect text member
    ⟨woven, Sql.foreign_of_woven woven⟩
  sent dialect b connected s member := by
    obtain ⟨text, among, spoken⟩ := connected.speaks.2 s member
    have accepted := Sql.exists_connected_iff.mp ⟨b, connected⟩
    refine ⟨text, among, spoken, ?_⟩
    rw [spoken]
    exact Sql.foreign_of_woven (Sql.woven_texts dialect text among) accepted

end TaskLease
