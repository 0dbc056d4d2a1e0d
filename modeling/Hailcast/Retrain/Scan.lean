import Hailcast.Common.Dynamo
import Hailcast.Lib.Cursor
import Hailcast.Lib.EventRun
import Mathlib.Data.List.Perm.Subperm

/-!
# Scanning the table

`scan_all` asks for one page after the other. Between two of its requests the accuracy check puts records and another
trigger marks some, so that no two pages need to show the same table. A write happens when reads begin to see it.
-/

namespace Hailcast

open EventRun

/-- What `_wrap` makes of an exception of boto3; others pass. -/
def dynamoWrap (operation tableName : String) : PyError → PyError
  | .clientError _ | .botoCoreError => .awsError "dynamodb" operation tableName
  | exc => exc

structure ScanResponse where
  items : List DynamoItem
  lastEvaluatedKey : Option (Str × Str)

inductive ScanLoop where
  | running (items : List DynamoItem) (exclusiveStartKey : Option (Str × Str))
  | returned (items : List DynamoItem)
  | raised (exc : PyError)

/-- The body of the `while` of `scan_all`, by what the request gives. -/
def ScanLoop.round (tableName : String) : ScanLoop → Except PyError ScanResponse → ScanLoop
  | .running items _, .ok response =>
      match response.lastEvaluatedKey with
      | none => .returned (items ++ response.items)
      | some key => .running (items ++ response.items) (some key)
  | .running _ _, .error exc => .raised (dynamoWrap "scan" tableName exc)
  | loop, _ => loop

def ScanLoop.exclusiveStartKey : ScanLoop → Option (Str × Str)
  | .running _ key => key
  | _ => none

structure ScanState where
  table : DynamoTable
  loop : ScanLoop := .running [] none

inductive ScanEvent where
  | put (key : Str × Str) (attributes : DynamoItem)
  | update (key : Str × Str) (name : String) (value : AttributeValue)
  /-- the next request; the service decides how much fits into the page -/
  | page (limit : Nat) (probe : Bool)
  | fault (exc : PyError)

def ScanEvent.written : ScanEvent → Option (Str × Str)
  | .put key _ | .update key _ _ => some key
  | _ => none

def ScanEvent.isPage : ScanEvent → Bool
  | .page _ _ => true
  | _ => false

namespace ScanState

/-- A page of the table, from the key that the loop asks for. -/
def respond (order : List (Str × Str)) (s : ScanState) (limit : Nat) (probe : Bool) : ScanResponse :=
  let page := Cursor.page s.table.get? order s.loop.exclusiveStartKey limit probe
  ⟨page.rows.map fun row => DynamoTable.item row.1 row.2, page.last⟩

/-- `order` is the order in which the service holds the keys. -/
def step (tableName : String) (order : List (Str × Str)) (s : ScanState) : ScanEvent → ScanState
  | .put key attributes => { s with table := s.table.put key attributes }
  | .update key name value => { s with table := s.table.update key name value }
  | .page limit probe => { s with loop := s.loop.round tableName (.ok (s.respond order limit probe)) }
  | .fault exc => { s with loop := s.loop.round tableName (.error exc) }

variable {tableName : String} {order : List (Str × Str)} {s : ScanState} {es : List ScanEvent} {e : ScanEvent}
  {key : Str × Str}

/-! ## The table -/

theorem get?_step (h : e.written ≠ some key) : (step tableName order s e).table.get? key = s.table.get? key := by
  cases e with
  | put k attributes =>
      have hne : k ≠ key := by simpa [ScanEvent.written] using h
      simp [step, DynamoTable.put, Dict.get?_set, hne]
  | update k name value =>
      have hne : k ≠ key := by simpa [ScanEvent.written] using h
      simp [step, DynamoTable.get?_update, hne]
  | page limit probe => rfl
  | fault exc => rfl

theorem get?_run (h : ∀ e ∈ es, e.written ≠ some key) :
    (run (step tableName order) s es).table.get? key = s.table.get? key := by
  induction es generalizing s with
  | nil => rfl
  | cons e es ih =>
      rw [run_cons, ih fun f hf => h f (List.mem_cons_of_mem e hf)]
      exact get?_step (h e List.mem_cons_self)

/-- No write removes a record. -/
theorem present_step (h : (s.table.get? key).isSome) : ((step tableName order s e).table.get? key).isSome := by
  cases e with
  | put k attributes =>
      simp only [step, DynamoTable.put, Dict.get?_set]
      split <;> simp [h]
  | update k name value =>
      simp only [step, DynamoTable.get?_update]
      split <;> simp [h]
  | page limit probe => exact h
  | fault exc => exact h

theorem present_run (h : (s.table.get? key).isSome) : ((run (step tableName order) s es).table.get? key).isSome := by
  induction es generalizing s with
  | nil => exact h
  | cons e es ih => exact ih (present_step h)

/-! ## What has been read -/

def record (row : (Str × Str) × DynamoItem) : DynamoItem := DynamoTable.item row.1 row.2

/-- The rows that the run `es` has read at the keys `done`. -/
structure Taken (tableName : String) (order : List (Str × Str)) (s : ScanState) (es : List ScanEvent)
    (done : List (Str × Str)) (rows : List ((Str × Str) × DynamoItem)) : Prop where
  keys : (rows.map Prod.fst).Sublist done
  held : ∀ row ∈ rows, ∃ pre post, es = pre ++ post ∧
    (run (step tableName order) s pre).table.get? row.1 = some row.2
  covers : ∀ key ∈ done, (s.table.get? key).isSome → key ∈ rows.map Prod.fst

namespace Taken

variable {done read : List (Str × Str)} {rows : List ((Str × Str) × DynamoItem)}

theorem extend (h : Taken tableName order s es done rows) (e : ScanEvent) :
    Taken tableName order s (es ++ [e]) done rows where
  keys := h.keys
  held row hrow := by
    obtain ⟨pre, post, rfl, hget⟩ := h.held row hrow
    exact ⟨pre, post ++ [e], by simp, hget⟩
  covers := h.covers

theorem page (h : Taken tableName order s es done rows) (e : ScanEvent) (read : List (Str × Str)) :
    Taken tableName order s (es ++ [e]) (done ++ read)
      (rows ++ Cursor.rows (run (step tableName order) s es).table.get? read) where
  keys := by
    rw [List.map_append]
    exact h.keys.append (Cursor.rows_sublist _ read)
  held row hrow := by
    cases List.mem_append.mp hrow with
    | inl hold => exact (h.extend e).held row hold
    | inr hnew => exact ⟨es, [e], rfl, (Cursor.mem_rows.mp hnew).2⟩
  covers key hkey hthere := by
    rw [List.map_append, List.mem_append]
    cases List.mem_append.mp hkey with
    | inl hold => exact Or.inl (h.covers key hold hthere)
    | inr hnew =>
        have hstill : ((run (step tableName order) s es).table.get? key).isSome := present_run hthere
        obtain ⟨attributes, hget⟩ := Option.isSome_iff_exists.mp hstill
        exact Or.inr (List.mem_map.mpr ⟨(key, attributes), Cursor.mem_rows.mpr ⟨hnew, hget⟩, rfl⟩)

end Taken

/-- Where the loop of a run is. -/
def Progress (tableName : String) (order : List (Str × Str)) (s : ScanState) (es : List ScanEvent) : ScanLoop → Prop
  | .running items start => ∃ done rows, done ++ Cursor.behind order start = order ∧ items = rows.map record ∧
      Taken tableName order s es done rows ∧ es.countP ScanEvent.isPage ≤ rows.length
  | .returned items => ∃ rows, items = rows.map record ∧ Taken tableName order s es order rows
  | .raised exc => ∃ cause, .fault cause ∈ es ∧ exc = dynamoWrap "scan" tableName cause

theorem Progress.quiet {loop : ScanLoop} (h : Progress tableName order s es loop) (he : e.isPage = false) :
    Progress tableName order s (es ++ [e]) loop := by
  cases loop with
  | running items start =>
      obtain ⟨done, rows, hdone, hitems, htaken, hpages⟩ := h
      exact ⟨done, rows, hdone, hitems, htaken.extend e, by simpa [he] using hpages⟩
  | returned items =>
      obtain ⟨rows, hitems, htaken⟩ := h
      exact ⟨rows, hitems, htaken.extend e⟩
  | raised exc =>
      obtain ⟨cause, hcause, rfl⟩ := h
      exact ⟨cause, List.mem_append_left _ hcause, rfl⟩

theorem Progress.page (hn : order.Nodup) (limit : Nat) (probe : Bool)
    (h : Progress tableName order s es (run (step tableName order) s es).loop) :
    Progress tableName order s (es ++ [.page limit probe])
      (step tableName order (run (step tableName order) s es) (.page limit probe)).loop := by
  have hstate : ∃ t, run (step tableName order) s es = t := ⟨_, rfl⟩
  obtain ⟨t, ht⟩ := hstate
  rw [ht] at h ⊢
  cases hloop : t.loop with
  | running items start =>
      rw [hloop] at h
      obtain ⟨done, rows, hdone, rfl, htaken, hpages⟩ := h
      cases hlast : (Cursor.page t.table.get? order start limit probe).last with
      | none =>
          have hstep : (step tableName order t (.page limit probe)).loop = .returned
              ((rows ++ Cursor.rows t.table.get? (Cursor.behind order start)).map record) := by
            have hrows := Cursor.page_end hlast
            simp [step, respond, hloop, ScanLoop.exclusiveStartKey, ScanLoop.round, hlast, hrows, record]
          have hall := htaken.page (.page limit probe) (Cursor.behind order start)
          rw [hdone, ht] at hall
          rw [hstep]
          exact ⟨_, rfl, hall⟩
      | some k =>
          obtain ⟨read, hsplit, hrows, hne⟩ := Cursor.page_last hn hdone hlast
          have hstep : (step tableName order t (.page limit probe)).loop = .running
              ((rows ++ Cursor.rows t.table.get? read).map record) (some k) := by
            simp [step, respond, hloop, ScanLoop.exclusiveStartKey, ScanLoop.round, hlast, hrows, record]
          have hmore := htaken.page (.page limit probe) read
          rw [ht] at hmore
          rw [hstep]
          refine ⟨done ++ read, _, hsplit, rfl, hmore, ?_⟩
          have hlength : 0 < (Cursor.rows t.table.get? read).length :=
            List.length_pos_iff.mpr (hrows ▸ hne)
          simp only [List.countP_append, List.countP_singleton, ScanEvent.isPage, List.length_append]
          simpa using by omega
  | returned items =>
      rw [hloop] at h
      obtain ⟨rows, hitems, htaken⟩ := h
      have hstep : (step tableName order t (.page limit probe)).loop = .returned items := by
        simp [step, hloop, ScanLoop.round]
      rw [hstep]
      exact ⟨rows, hitems, htaken.extend _⟩
  | raised exc =>
      rw [hloop] at h
      obtain ⟨cause, hcause, rfl⟩ := h
      have hstep : (step tableName order t (.page limit probe)).loop = .raised (dynamoWrap "scan" tableName cause) := by
        simp [step, hloop, ScanLoop.round]
      rw [hstep]
      exact ⟨cause, List.mem_append_left _ hcause, rfl⟩

theorem progress_run (hn : order.Nodup) (table : DynamoTable) (es : List ScanEvent) :
    Progress tableName order { table } es (run (step tableName order) { table } es).loop := by
  induction es using List.reverseRecOn with
  | nil => exact ⟨[], [], rfl, rfl, ⟨List.nil_sublist _, by simp, by simp⟩, by simp⟩
  | append_singleton es e ih =>
      rw [run_append]
      cases e with
      | put key attributes => exact ih.quiet rfl
      | update key name value => exact ih.quiet rfl
      | page limit probe => exact ih.page hn limit probe
      | fault exc =>
          simp only [run_cons, run_nil, step]
          cases hloop : (run (step tableName order) { table } es).loop with
          | running items start => exact ⟨exc, by simp, rfl⟩
          | returned items => exact (hloop ▸ ih).quiet rfl
          | raised cause => exact (hloop ▸ ih).quiet rfl

/-! ## What is returned -/

/-- What a list of records says about the table of the run that it was read in. -/
structure Shows (tableName : String) (order : List (Str × Str)) (table : DynamoTable) (es : List ScanEvent)
    (items : List DynamoItem) : Prop where
  once : (items.map DynamoItem.key).Nodup
  held : ∀ item ∈ items, ∃ pre post, es = pre ++ post ∧
    item ∈ (run (step tableName order) { table } pre).table.items
  present : ∀ item ∈ table.items, ∃ found ∈ items, found.key = item.key
  untouched : ∀ item ∈ table.items, (∀ e ∈ es, e.written ≠ item.key) → item ∈ items
  unwritten : (∀ e ∈ es, e.written = none) → items.Perm table.items

variable {table : DynamoTable} {rows : List ((Str × Str) × DynamoItem)} {done : List (Str × Str)}

theorem map_key_record (rows : List ((Str × Str) × DynamoItem)) :
    (rows.map record).map DynamoItem.key = (rows.map Prod.fst).map some := by
  simp [record, Function.comp_def]

namespace Taken

theorem nodup (h : Taken tableName order s es done rows) (hn : done.Nodup) :
    ((rows.map record).map DynamoItem.key).Nodup := by
  rw [map_key_record]
  exact (h.keys.nodup hn).map (Option.some_injective _)

theorem length_le (h : Taken tableName order s es done rows) (hn : done.Nodup) :
    rows.length ≤ (run (step tableName order) s es).table.items.length := by
  have hsub : rows.map Prod.fst ⊆ (run (step tableName order) s es).table.keys := by
    intro key hkey
    obtain ⟨row, hrow, rfl⟩ := List.mem_map.mp hkey
    obtain ⟨pre, post, rfl, hget⟩ := h.held row hrow
    rw [run_append]
    exact (Dict.get?_isSome _ _).mp (present_run (by simp [hget]))
  have hle := ((h.keys.nodup hn).subperm hsub).length_le
  simpa [DynamoTable.items, Dict.keys] using hle

theorem untouched (h : Taken tableName order { table } es order rows)
    (horder : ∀ key ∈ table.keys, key ∈ order) {item : DynamoItem} (hitem : item ∈ table.items)
    (hquiet : ∀ e ∈ es, e.written ≠ item.key) : item ∈ rows.map record := by
  obtain ⟨key, attributes, hget, rfl⟩ := DynamoTable.mem_items.mp hitem
  have hthere : (table.get? key).isSome := by simp [hget]
  obtain ⟨row, hrow, rfl⟩ := List.mem_map.mp (h.covers key (horder key ((Dict.get?_isSome table key).mp hthere)) hthere)
  obtain ⟨pre, post, rfl, hread⟩ := h.held row hrow
  have hsame : (run (step tableName order) { table } pre).table.get? row.1 = table.get? row.1 :=
    get?_run fun e he => by simpa using hquiet e (List.mem_append_left _ he)
  have hattributes : row.2 = attributes := Option.some.inj (hread.symm.trans (hsame.trans hget))
  exact List.mem_map.mpr ⟨row, hrow, by rw [record, hattributes]⟩

theorem shows (h : Taken tableName order { table } es order rows) (hn : order.Nodup)
    (horder : ∀ key ∈ table.keys, key ∈ order) : Shows tableName order table es (rows.map record) := by
  have hheld : ∀ item ∈ rows.map record, ∃ pre post, es = pre ++ post ∧
      item ∈ (run (step tableName order) { table } pre).table.items := by
    intro item hitem
    obtain ⟨row, hrow, rfl⟩ := List.mem_map.mp hitem
    obtain ⟨pre, post, hsplit, hget⟩ := h.held row hrow
    exact ⟨pre, post, hsplit, DynamoTable.mem_items.mpr ⟨row.1, row.2, hget, rfl⟩⟩
  refine ⟨h.nodup hn, hheld, ?_, fun item hitem => h.untouched horder hitem, ?_⟩
  · intro item hitem
    obtain ⟨key, attributes, hget, rfl⟩ := DynamoTable.mem_items.mp hitem
    have hthere : (table.get? key).isSome := by simp [hget]
    obtain ⟨row, hrow, rfl⟩ := List.mem_map.mp
      (h.covers key (horder key ((Dict.get?_isSome table key).mp hthere)) hthere)
    exact ⟨record row, List.mem_map.mpr ⟨row, hrow, rfl⟩, rfl⟩
  · intro hquiet
    have hitems : (table.items.map DynamoItem.key).Nodup := by
      have hkeys : table.items.map DynamoItem.key = table.keys.map some := map_key_record table.entries
      rw [hkeys]
      exact table.nodup.map (Option.some_injective _)
    rw [List.perm_ext_iff_of_nodup (h.nodup hn).of_map hitems.of_map]
    intro item
    constructor
    · intro hitem
      obtain ⟨pre, post, rfl, hmem⟩ := hheld item hitem
      obtain ⟨key, attributes, hget, rfl⟩ := DynamoTable.mem_items.mp hmem
      rw [get?_run fun e he => by simp [hquiet e (List.mem_append_left _ he)]] at hget
      exact DynamoTable.mem_items.mpr ⟨key, attributes, hget, rfl⟩
    · intro hitem
      obtain ⟨key, attributes, -, rfl⟩ := DynamoTable.mem_items.mp hitem
      exact h.untouched horder hitem fun e he => by simp [hquiet e he]

end Taken

end ScanState

open ScanState

/-- However the service cuts the pages and whatever is written between them, what `scan_all` returns shows every record
of the table once; it raises what a request raised; and it needs one request for each record and one more at most. -/
theorem scan_all_shows {tableName : String} {order : List (Str × Str)} {table : DynamoTable} {es : List ScanEvent}
    (hn : order.Nodup) (horder : ∀ key ∈ (run (step tableName order) { table } es).table.keys, key ∈ order) :
    (∀ items, (run (step tableName order) { table } es).loop = .returned items →
      Shows tableName order table es items) ∧
    (∀ exc, (run (step tableName order) { table } es).loop = .raised exc →
      ∃ cause, .fault cause ∈ es ∧ exc = dynamoWrap "scan" tableName cause) ∧
    ((run (step tableName order) { table } es).table.items.length < es.countP ScanEvent.isPage →
      ∀ items key, (run (step tableName order) { table } es).loop ≠ .running items key) := by
  have hprogress : Progress tableName order { table } es (run (step tableName order) { table } es).loop :=
    progress_run hn table es
  refine ⟨fun items hloop => ?_, fun exc hloop => ?_, fun hpages items key hloop => ?_⟩
  · rw [hloop] at hprogress
    obtain ⟨rows, rfl, htaken⟩ := hprogress
    refine htaken.shows hn fun key hkey => horder key ?_
    exact (Dict.get?_isSome _ _).mp (present_run ((Dict.get?_isSome table key).mpr hkey))
  · rw [hloop] at hprogress
    exact hprogress
  · rw [hloop] at hprogress
    obtain ⟨done, rows, hdone, rfl, htaken, hcount⟩ := hprogress
    have hdone' : done.Nodup := (hdone ▸ hn).of_append_left
    exact absurd (hcount.trans (htaken.length_le hdone')) (not_le.mpr hpages)

/-- A record is put where the scan has been, and the second page names its last key though no row is left. -/
def writtenScan : List ScanEvent :=
  [.page 0 false, .put (.date 2, .aware 0) [("diff", .n 7)], .page 0 true,
    .update (.date 0, .aware 0) "학습여부" (.n 1), .page 5 false]

def scannedTable : DynamoTable :=
  (DynamoTable.put Dict.empty (.date 1, .aware 0) [("diff", .n 3)]).put (.date 0, .aware 0) [("diff", .n 5)]

def scanOrder : List (Str × Str) := [(.date 2, .aware 0), (.date 0, .aware 0), (.date 1, .aware 0)]

theorem scan_all_shows_written :
    ∃ items, items.length = 2 ∧
      (run (step "log" scanOrder) { table := scannedTable } writtenScan).loop = .returned items ∧
      Shows "log" scanOrder scannedTable writtenScan items :=
  ⟨_, rfl, rfl, (scan_all_shows (by decide) (by decide)).1 _ rfl⟩

end Hailcast
