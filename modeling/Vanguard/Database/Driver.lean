import Vanguard.Database.Postgres
import Vanguard.Library.Calendar

/-!
# `Vanguard.Database.Driver`: the due date between a server and its `DATE` column

`postgres` is the engine of a server at UTC. The due date of an invoice is a `DATE`, and the
driver of `core/database/pool.ts` converts at both ends, on the clock of the server process:

* a `Date` parameter is written as local time with the offset of the server, of which the
  `DATE` column takes the date (`toDateColumn`);
* the parser of a `DATE`, which the pool does not replace, answers the local midnight of the
  date (`ofDateColumn`). The parsers of `TIMESTAMP` and `TIMESTAMPTZ` are replaced, so that
  these columns keep their instants.

`postgresAt offset` is the engine as a server at this offset sees it. A row of its database
holds the date of the column as its UTC midnight.
-/

set_option autoImplicit false

namespace Vanguard

open ReadCommitted Calendar

/-- What a `DATE` column stores of an instant: the UTC midnight of the local date. -/
def toDateColumn (offset : Int) (t : Timestamp) : Timestamp :=
  localMidnight 0 (localDate offset t)

/-- The driver's way into a `DATE` column is the column's, at the local time. -/
theorem toDateColumn_eq (offset : Int) (t : Timestamp) :
    toDateColumn offset t = dateColumn (t + offset) := by
  rw [toDateColumn, localDate, localMidnight, CivilDate.dayNumber_ofDayNumber, Int.sub_zero,
    dateColumn]

/-- A column keeps the midnight of a date. -/
theorem dateColumn_toDateColumn (offset : Int) (t : Timestamp) :
    dateColumn (toDateColumn offset t) = toDateColumn offset t := by
  rw [toDateColumn_eq, dateColumn, dateColumn, Int.mul_ediv_cancel _ (by decide)]

/-- The instant that the parser of a `DATE` answers: the local midnight of the date. -/
def ofDateColumn (offset : Int) (t : Timestamp) : Timestamp :=
  localMidnight offset (localDate 0 t)

/-- The parameters of `save`, as the driver sends them. -/
def CreateInvoiceInput.encode (offset : Int) (input : CreateInvoiceInput) : CreateInvoiceInput :=
  { input with dueDate := toDateColumn offset input.dueDate }

/-- A row of `invoices`, as the driver answers it. -/
def Invoice.decode (offset : Int) (r : Invoice) : Invoice :=
  { r with dueDate := ofDateColumn offset r.dueDate }

/-- The rows of an answer, as the driver answers them. -/
def Sql.decode (offset : Int) : (q : Sql) → q.Rows → q.Rows
  | .selectInvoiceById _, rows | .selectInvoiceByNumber _, rows | .insertInvoice _, rows
  | .updateInvoiceStatus _ _, rows | .updateInvoiceSignature _ _, rows =>
    rows.map (Invoice.decode offset)
  | .selectVanByInvoiceId _, rows | .selectVanByAccountNumber _, rows | .insertVan _, rows
  | .updateReceivedAmount _ _, rows | .settleAccount _, rows => rows
  | .insertLedgerEntry _, rows | .selectLedgerEntries _, rows => rows
  | .insertEvent _, rows | .selectEvents _, rows => rows
  | .selectOrganisation _, rows => rows
  | .selectCredential _, rows => rows

/-- One statement of a server at this offset. -/
def Sql.execAt (offset : Int) : (q : Sql) → (start env : Env) → Database →
    Except PgError (List RowVersion × q.Rows)
  | .insertInvoice input, start, env, db =>
    ((Sql.insertInvoice (input.encode offset)).exec start env db).map fun a =>
      (a.1, Sql.decode offset (.insertInvoice input) a.2)
  | q, start, env, db => (q.exec start env db).map fun a => (a.1, q.decode offset a.2)

/-- The PostgreSQL engine behind the driver of a server at this offset. -/
def postgresAt (offset : Int) :
    Engine Database RowVersion Sql Ext Env JsError Sql.Rows Ext.Res :=
  { postgres with exec := fun q start env db => (q.execAt offset start env db).mapError .pg }

end Vanguard
