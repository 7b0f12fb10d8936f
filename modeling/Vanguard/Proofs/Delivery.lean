import Vanguard.Proofs.Conservation
import Vanguard.Proofs.Settlement

/-!
# `Vanguard.Proofs.Delivery`: every payment counts once

The bank delivers a finite set of payments to one account, each at least once, in any order
and in any interleaving. `delivered_of_run` says what is left when all calls have finished:
the credits of the account are the payments, the balance is their sum, the invoice is repaid
exactly when the sum is the expected amount, and every delivery has been acknowledged.

`Delivering` is the invariant of the committed moments. The two arguments behind it are in
the library of account books: `Books.total_add_le` (a payment that is not yet booked still
fits under the expected amount, so a settled account has booked all of them) and
`Books.payments_perm`.
-/

set_option autoImplicit false

namespace Vanguard

open ReadCommitted Database

/-! ### Payments to one account -/

/-- A payment of the bank, as the books see it. -/
def RecordPaymentCommand.payment (p : RecordPaymentCommand) : String × Int :=
  (p.idempotencyKey, p.amountCents)

/-- The sum of the amounts. -/
def totalOf (P : List RecordPaymentCommand) : Int := (P.map RecordPaymentCommand.amountCents).sum

/-- Parsed webhook bodies with different keys, all for the account `v`, of at most its
expected amount. -/
structure PaymentsTo (v : VirtualAccount) (P : List RecordPaymentCommand) : Prop where
  body : ∀ p ∈ P, ∃ body, recordPaymentSchema body = some p
  number : ∀ p ∈ P, p.accountNumber = v.accountNumber
  keys : (P.map RecordPaymentCommand.idempotencyKey).Nodup
  total : totalOf P ≤ v.expectedAmountCents

/-- The account `v` is active and has received nothing, and no ledger entry has the key of a
payment. -/
structure Awaiting (db : Database) (v : VirtualAccount) (P : List RecordPaymentCommand) :
    Prop where
  van : db.van v.id = some v
  active : v.status = .active
  received : v.receivedAmountCents = 0
  fresh : ∀ p ∈ P, ∀ e ∈ db.ledgerEntries, e.idempotencyKey ≠ p.idempotencyKey

namespace PaymentsTo

variable {v : VirtualAccount} {P : List RecordPaymentCommand}

/-- A payment of the list has a positive and safe amount. -/
theorem positive (h : PaymentsTo v P) {p : RecordPaymentCommand} (hp : p ∈ P) :
    0 < p.amountCents ∧ p.amountCents ≤ maxSafeInteger := by
  obtain ⟨body, hbody⟩ := h.body p hp
  exact (recordPaymentSchema_some hbody).2

/-- The key of a payment of the list has no space around it. -/
theorem trimmed (h : PaymentsTo v P) {p : RecordPaymentCommand} (hp : p ∈ P) :
    trim p.idempotencyKey = p.idempotencyKey := by
  obtain ⟨body, hbody⟩ := h.body p hp
  exact (recordPaymentSchema_some hbody).1

/-- The amounts of the payments are positive. -/
theorem payment_pos (h : PaymentsTo v P) :
    ∀ q ∈ P.map RecordPaymentCommand.payment, 0 < q.2 := by
  intro q hq
  obtain ⟨p, hp, rfl⟩ := List.mem_map.mp hq
  exact (h.positive hp).1

/-- The keys of the payments are different. -/
theorem payment_keys (h : PaymentsTo v P) :
    ((P.map RecordPaymentCommand.payment).map Prod.fst).Nodup := by
  simpa [Function.comp_def, RecordPaymentCommand.payment] using h.keys

end PaymentsTo

/-- The total of the payments is the sum of their amounts. -/
theorem totalOf_eq (P : List RecordPaymentCommand) :
    totalOf P = ((P.map RecordPaymentCommand.payment).map Prod.snd).sum := by
  simp [totalOf, Function.comp_def, RecordPaymentCommand.payment]

/-! ### The invariant -/

/-- A committed moment of the deliveries. `a` is the row of the account. -/
structure Delivering (v : VirtualAccount) (P : List RecordPaymentCommand) (db : Database)
    (a : VirtualAccount) : Prop where
  van : db.van v.id = some a
  evolves : v.Evolves a
  linked : db.Linked
  balanced : Books.Balanced db.books
  trimmed : db.KeysTrimmed
  credits : ∀ e ∈ db.creditsOf v.id, ∃ p ∈ P, e.book.payment = p.payment
  keys : ∀ p ∈ P, ∀ e ∈ db.ledgerEntries, e.idempotencyKey = p.idempotencyKey →
    e ∈ db.creditsOf v.id
  status : a.status ≠ .expired
  settled : a.status = .settled ↔ a.receivedAmountCents = a.expectedAmountCents
  events : (db.repaidEvents v.invoiceId).length = if a.status = .settled then 1 else 0
  invoice : db.statusOf v.invoiceId = some .repaid ↔ a.status = .settled

/-- The credits of an account, spelled out. -/
theorem mem_creditsOf {db : Database} {id : Uuid} {e : LedgerEntry} :
    e ∈ db.creditsOf id ↔
      e ∈ db.ledgerEntries ∧ e.virtualAccountId = id ∧ e.entryType = .credit := by
  simp [creditsOf]

namespace Delivering

variable {v a : VirtualAccount} {P : List RecordPaymentCommand} {db : Database}

/-- The credits of the account, as entries of the books. -/
theorem payment_mem (h : Delivering v P db a) :
    ∀ e ∈ db.books.side v.id .credit, e.payment ∈ P.map RecordPaymentCommand.payment := by
  intro e he
  rw [side_credit] at he
  obtain ⟨x, hx, rfl⟩ := List.mem_map.mp he
  obtain ⟨p, hp, hpay⟩ := h.credits x hx
  exact hpay ▸ List.mem_map_of_mem hp

/-- The received amount is the total of the credit side of the books. -/
theorem received_eq (h : Delivering v P db a) :
    a.receivedAmountCents = Books.total (db.books.side v.id .credit) :=
  h.balanced.received v.id a.book (account_books_of_van h.van)

/-- The balance is at most the expected amount. -/
theorem received_le (h : Delivering v P db a) (hP : PaymentsTo v P) :
    0 ≤ a.receivedAmountCents ∧ a.receivedAmountCents ≤ v.expectedAmountCents := by
  have hle := Books.total_le hP.payment_pos (h.balanced.side_keys v.id .credit) h.payment_mem
  rw [← totalOf_eq, ← h.received_eq] at hle
  exact ⟨h.received_eq ▸ Books.total_nonneg (h.balanced.side_positive v.id .credit),
    hle.trans hP.total⟩

/-- A payment whose key is not used yet fits under the expected amount. -/
theorem received_add_le (h : Delivering v P db a) (hP : PaymentsTo v P)
    {p : RecordPaymentCommand} (hp : p ∈ P)
    (hnew : ∀ e ∈ db.ledgerEntries, e.idempotencyKey ≠ p.idempotencyKey) :
    a.receivedAmountCents + p.amountCents ≤ a.expectedAmountCents := by
  have hle := Books.total_add_le hP.payment_pos (h.balanced.side_keys v.id .credit)
    h.payment_mem (List.mem_map_of_mem hp) (fun e he => ?_)
  · rw [← totalOf_eq, ← h.received_eq] at hle
    rw [h.evolves.expectedAmountCents]
    exact hle.trans hP.total
  · rw [side_credit] at he
    obtain ⟨x, hx, rfl⟩ := List.mem_map.mp he
    exact hnew x (mem_creditsOf.mp hx).1

/-- Once the account is settled, every payment has its entry. -/
theorem booked_of_settled (h : Delivering v P db a) (hP : PaymentsTo v P)
    (hs : a.status = .settled) {p : RecordPaymentCommand} (hp : p ∈ P) :
    ∃ e ∈ db.ledgerEntries, e.idempotencyKey = p.idempotencyKey := by
  by_contra hnone
  have hnew : ∀ e ∈ db.ledgerEntries, e.idempotencyKey ≠ p.idempotencyKey :=
    fun e he hk => hnone ⟨e, he, hk⟩
  have hle := h.received_add_le hP hp hnew
  have hpos := (hP.positive hp).1
  have hfull := h.settled.mp hs
  omega

/-- The row that a payment of `P` has read is the account. -/
theorem van_id_eq (h : Delivering v P db a) (hP : PaymentsTo v P) {p : RecordPaymentCommand}
    (hp : p ∈ P) {seen : Database} (hev : seen.Evolves db) {van : VirtualAccount}
    (hvan : seen.vanByNumber p.accountNumber = some van) : van.id = v.id := by
  obtain ⟨hseen, hnumber⟩ := vanByNumber_some hvan
  obtain ⟨v', hv', hvev⟩ := hev.van _ _ hseen
  refine h.linked.accountNumber _ _ _ _ hv' h.van ?_
  rw [hvev.accountNumber, hnumber, hP.number p hp, h.evolves.accountNumber]

/-- The parts of the invariant that look at the ledger, after the entry of a payment. -/
theorem ledger_append (h : Delivering v P db a) (hP : PaymentsTo v P)
    {p : RecordPaymentCommand} (hp : p ∈ P) {db' : Database} {start : Env}
    (hledger : db'.ledgerEntries = db.ledgerEntries ++ [(p.credit v.id).row start]) :
    db'.KeysTrimmed ∧ (∀ e ∈ db'.creditsOf v.id, ∃ p ∈ P, e.book.payment = p.payment) ∧
      ∀ p ∈ P, ∀ e ∈ db'.ledgerEntries, e.idempotencyKey = p.idempotencyKey →
        e ∈ db'.creditsOf v.id := by
  have hcases : ∀ e ∈ db'.ledgerEntries, e ∈ db.ledgerEntries ∨ e = (p.credit v.id).row start := by
    intro e he
    rw [hledger] at he
    simpa using he
  refine ⟨fun e he => ?_, fun e he => ?_, fun q hq e he hk => ?_⟩
  · rcases hcases e he with he | rfl
    · exact h.trimmed e he
    · exact hP.trimmed hp
  · obtain ⟨he, hid, hcredit⟩ := mem_creditsOf.mp he
    rcases hcases e he with he | rfl
    · exact h.credits e (mem_creditsOf.mpr ⟨he, hid, hcredit⟩)
    · exact ⟨p, hp, rfl⟩
  · rw [mem_creditsOf]
    refine ⟨he, ?_⟩
    rcases hcases e he with he | rfl
    · exact (mem_creditsOf.mp (h.keys q hq e he hk)).2
    · exact ⟨rfl, rfl⟩

/-- The settle test is exact on the amounts of the account. -/
theorem paidInFull_iff (h : Delivering v P db a) (hP : PaymentsTo v P)
    (hsafe : v.expectedAmountCents ≤ maxSafeInteger) {p : RecordPaymentCommand} (hp : p ∈ P)
    (hnew : ∀ e ∈ db.ledgerEntries, e.idempotencyKey ≠ p.idempotencyKey) :
    (a.receive p.amountCents).paidInFull ↔
      a.receivedAmountCents + p.amountCents = a.expectedAmountCents := by
  have hle := h.received_add_le hP hp hnew
  have hpos := (hP.positive hp).1
  have hreceived := (h.received_le hP).1
  have hmax : a.expectedAmountCents ≤ maxSafeInteger := h.evolves.expectedAmountCents ▸ hsafe
  have hnumber₁ : number a.expectedAmountCents = a.expectedAmountCents :=
    number_of_le (by omega) hmax
  have hnumber₂ : number (a.receivedAmountCents + p.amountCents) =
      a.receivedAmountCents + p.amountCents := number_of_le (by omega) (hle.trans hmax)
  show number a.expectedAmountCents ≤ number (a.receivedAmountCents + p.amountCents) ↔ _
  rw [hnumber₁, hnumber₂]
  omega

/-- A committed payment keeps the invariant. -/
theorem commit {I : Interference Database RowVersion} {born seen t : Log}
    {rows : List RowVersion} (h : Delivering v P t.now a) (hP : PaymentsTo v P)
    (hsafe : v.expectedAmountCents ≤ maxSafeInteger) {p : RecordPaymentCommand} (hp : p ∈ P)
    (hc : Commit I born seen t (.recordPayment p) rows) (hev : seen.now.Evolves t.now)
    (hseen : seen.now.Linked) : ∃ a', Delivering v P (t.commit rows).now a' := by
  have hlinked := h.linked.commit hc hev
  have hbalanced := h.balanced.step hc.books_step
  obtain ⟨van₀, _, _, hvan₀, -, -, hledger⟩ := hc.payment
  rw [h.van_id_eq hP hp hev hvan₀] at hledger
  obtain ⟨htrimmed, hcredits, hkeys⟩ := h.ledger_append hP hp hledger
  rw [Timeline.now_commit] at hlinked hbalanced htrimmed hcredits hkeys ⊢
  have hpos := (hP.positive hp).1
  cases hc with
  | paid van v₁ start _ _ hvan _ _ _ hkey hrow hopen =>
      have hid := h.van_id_eq hP hp hev hvan
      obtain rfl : a = v₁ := Option.some.inj (h.van.symm.trans (hid ▸ hrow))
      have hle := h.received_add_le hP hp hkey
      -- The account is not settled: its balance would be the expected amount already.
      rw [h.paidInFull_iff hP hsafe hp hkey] at hopen
      have hactive : a.status ≠ .settled := fun hs => by
        have := h.settled.mp hs
        omega
      refine ⟨a.receive p.amountCents,
        { van := ?_, evolves := h.evolves.trans (a.evolves_receive _), linked := hlinked,
          balanced := hbalanced, trimmed := htrimmed, credits := hcredits, keys := hkeys,
          status := h.status, settled := ⟨fun hs => absurd hs hactive, fun hs => absurd hs hopen⟩,
          events := h.events, invoice := h.invoice }⟩
      simp [van_id h.van]
  | settled van v₁ o settledAt start _ _ hvan _ _ _ hkey hrow hfull hinvoice =>
      have hid := h.van_id_eq hP hp hev hvan
      obtain rfl : a = v₁ := Option.some.inj (h.van.symm.trans (hid ▸ hrow))
      rw [h.paidInFull_iff hP hsafe hp hkey] at hfull
      have hbefore : a.status ≠ .settled := fun hs => by
        have := h.settled.mp hs
        omega
      -- The invoice of the account is there, so the settle branch has found it.
      obtain ⟨hvanid, -⟩ := vanByNumber_some hvan
      have hinv : van.invoiceId = v.invoiceId := by
        obtain ⟨a', ha', haev⟩ := hev.van van.id van hvanid
        obtain rfl : a = a' := Option.some.inj (hrow.symm.trans ha')
        rw [← haev.invoiceId, h.evolves.invoiceId]
      obtain ⟨r, rfl, hr⟩ : ∃ r, o = some r ∧ t.now.invoice van.invoiceId = some r := by
        rcases hinvoice with hr | ⟨-, hnone⟩
        · exact hr
        · obtain ⟨r, hr⟩ := hseen.invoice van.id van hvanid
          rw [hr] at hnone
          cases hnone
      refine ⟨(a.receive p.amountCents).settle,
        { van := ?_
          evolves := (h.evolves.trans (a.evolves_receive _)).trans
            (VirtualAccount.evolves_settle _)
          linked := hlinked, balanced := hbalanced, trimmed := htrimmed, credits := hcredits,
          keys := hkeys, status := fun hs => (nomatch hs),
          settled := ⟨fun _ => hfull, fun _ => rfl⟩, events := ?_,
          invoice := ⟨fun _ => rfl, fun _ => ?_⟩ }⟩
      · simp [writeAll_append, van_id h.van]
      · rw [@length_repaidEvents_append t.now _
          (repaidEvent p van (a.receive p.amountCents) settledAt start.now)
          (by simp [writeAll_append]) rfl, h.events, if_neg hbefore]
        simp [repaidEvent, hinv, VirtualAccount.settle]
      · simp [statusOf, updateRow, invoice_id hr, hinv]

end Delivering

/-- The invoice has no settled account, because it has no other account. -/
theorem Awaiting.not_settledFor {db : Database} {v : VirtualAccount}
    {P : List RecordPaymentCommand} (h : Awaiting db v P) (hlinked : db.Linked) :
    ¬ db.SettledFor v.invoiceId := by
  rintro ⟨v', hv', hinvoice, hsettled⟩
  have hid := hlinked.invoiceId _ _ _ _ hv' h.van hinvoice
  rw [hid, h.van] at hv'
  cases hv'
  rw [h.active] at hsettled
  cases hsettled

/-- The invariant before the first delivery. -/
theorem Awaiting.delivering {db : Database} {v : VirtualAccount} {P : List RecordPaymentCommand}
    (h : Awaiting db v P) (hlinked : db.Linked) (hbalanced : Books.Balanced db.books)
    (htrimmed : db.KeysTrimmed) (hrepaid : db.RepaidBySettlement) : Delivering v P db v where
  van := h.van
  evolves := VirtualAccount.Evolves.refl v
  linked := hlinked
  balanced := hbalanced
  trimmed := htrimmed
  credits e he := by
    -- The balance is zero, so there is no credit yet.
    have hnone : db.books.side v.id .credit = [] := by
      refine Books.eq_nil_of_total (hbalanced.side_positive v.id .credit) ?_
      exact (hbalanced.received v.id v.book (account_books_of_van h.van)).symm.trans h.received
    rw [side_credit, List.map_eq_nil_iff] at hnone
    rw [hnone] at he
    cases he
  keys p hp e he hk := absurd hk (h.fresh p hp e he)
  status hs := by
    rw [h.active] at hs
    cases hs
  settled := by
    have hpos : 0 < v.expectedAmountCents :=
      hbalanced.expected_pos (account_books_of_van h.van)
    rw [h.active, h.received]
    exact ⟨fun hs => (nomatch hs), fun hs => by omega⟩
  events := by
    have hnone : db.repaidEvents v.invoiceId = [] := by
      by_contra hne
      exact h.not_settledFor hlinked (hrepaid.event v.invoiceId hne)
    rw [hnone, h.active]
    rfl
  invoice := by
    rw [h.active]
    refine ⟨fun hs => ?_, fun hs => nomatch hs⟩
    obtain ⟨r, hr, hstatus⟩ := Option.map_eq_some_iff.mp hs
    exact absurd (hrepaid.status v.invoiceId r hr hstatus) (h.not_settledFor hlinked)

/-! ### Runs -/

/-- The steps of deliveries of `P` without a failure. -/
def DeliveryStep (P : List RecordPaymentCommand) (_ : ServiceWorld) (a : Step) : Prop :=
  (∀ c, a = .spawn c → ∃ p ∈ P, c = .recordPayment p) ∧
    ∀ i env, a = .step i env → env.fault = false

/-- The invariant of the log, from the moment `t₀` of the first delivery on. -/
def DeliveringFrom (t₀ : Log) (v : VirtualAccount) (P : List RecordPaymentCommand) (u : Log) :
    Prop :=
  u.now.Linked ∧ (t₀ ≤ u → ∃ a, Delivering v P u.now a)

section
variable {v : VirtualAccount} {P : List RecordPaymentCommand} {t₀ t : Log}

/-- The deliveries keep the invariant at every moment. -/
theorem delivering_of_run (ht₀ : Evolving t₀) (hlinked : ∀ u ≤ t₀, u.now.Linked)
    (hstart : ∃ a, Delivering v P t₀.now a) (hP : PaymentsTo v P)
    (hsafe : v.expectedAmountCents ≤ maxSafeInteger) {w : ServiceWorld}
    (h : Runs (DeliveryStep P) t₀ w) : ∀ u ≤ w.timeline, DeliveringFrom t₀ v P u := by
  refine Runs.invariant (C := fun c _ => ∃ p ∈ P, c = .recordPayment p)
    (Or.inl Interference.concurrent_shared) (fun _ c ha => ha.1 c rfl) ht₀
    (fun u hu => ⟨hlinked u hu, fun hle => le_antisymm hu hle ▸ hstart⟩) ?_ h
  rintro c born seen t rows ⟨p, hp, rfl⟩ hc hev ih
  have hseen := hev.evolves hc.seen_le
  refine ⟨(ih t (le_refl t)).1.commit hc hseen, fun hle => ?_⟩
  rcases Timeline.le_commit_iff.mp hle with rfl | hle
  · exact hstart
  · obtain ⟨a, ha⟩ := (ih t (le_refl t)).2 hle
    exact ha.commit hP hsafe hp hc hseen (ih seen hc.seen_le).1

/-- A finished delivery was acknowledged, and the ledger has its key. -/
theorem acknowledged_of_ended (hinv : ∀ u ≤ t, DeliveringFrom t₀ v P u) (hP : PaymentsTo v P)
    (hsafe : v.expectedAmountCents ≤ maxSafeInteger) {p : RecordPaymentCommand} (hp : p ∈ P)
    {born seen time : Log} {r : Except JsError Reply}
    (h : Ended Interference.concurrent (fun env => env.fault = false) born (.recordPayment p)
      seen time r) (hborn : t₀ ≤ born) (htime : time ≤ t) :
    (webhookAnswer r).status = 200 ∧
      ∃ e ∈ t.now.ledgerEntries, e.idempotencyKey = p.idempotencyKey := by
  have noFault : ¬ Faulty fun env : Env => env.fault = false := by
    rintro ⟨env, hadm, hf⟩
    rw [hadm] at hf
    cases hf
  cases h with
  | committed u rows _ hc hrel hfault =>
      have hle : u.commit rows ≤ t :=
        le_trans (hc.publish_eq ▸ Interference.concurrent.le hrel) htime
      refine ⟨?_, ?_⟩
      · cases r with
        | ok reply => rfl
        | error e => exact absurd (hfault e rfl) noFault
      · obtain ⟨van, _, start, -, -, -, hledger⟩ := hc.payment
        refine ⟨(p.credit van.id).row start, mem_ledgerEntries_of_le hle ?_, rfl⟩
        rw [hledger]
        exact List.mem_append_right _ (List.mem_singleton_self _)
  | refused err hseen hrel hwhy =>
      have hle : seen ≤ t := le_trans (Interference.concurrent.le hrel) htime
      have hfrom : t₀ ≤ seen := le_trans hborn (Interference.concurrent.le hseen)
      obtain ⟨a, ha⟩ := (hinv seen hle).2 hfrom
      have hrow : ∀ van, seen.now.vanByNumber p.accountNumber = some van → van = a := by
        intro van hvan
        have hid := ha.van_id_eq hP hp (Evolves.refl _) hvan
        exact Option.some.inj ((hid ▸ (vanByNumber_some hvan).1).symm.trans ha.van)
      have hlater : ∀ u, Interference.concurrent.rel [] seen u →
          Interference.concurrent.rel [] u time → u ≤ t ∧ t₀ ≤ u :=
        fun u hu hu' => ⟨le_trans (Interference.concurrent.le hu') htime,
          le_trans hfrom (Interference.concurrent.le hu)⟩
      -- A payment that commits nothing is a duplicate, every other reason is excluded.
      cases hwhy with
      | fault hf => exact absurd hf noFault
      | noAccount hnone =>
          have hfound := ha.linked.vanByNumber ha.van
          rw [ha.evolves.accountNumber, ← hP.number p hp, hnone] at hfound
          cases hfound
      | expired van _ hvan hexpired => exact absurd (hrow van hvan ▸ hexpired) ha.status
      | layerOne van u hvan _ hu hu' hdup =>
          obtain ⟨hut, htu⟩ := hlater u hu hu'
          obtain ⟨au, hau⟩ := (hinv u hut).2 htu
          obtain ⟨e, he, -, hk⟩ := (isDuplicate_iff hau.trimmed (hP.trimmed hp) van.id).mp hdup
          exact ⟨rfl, e, mem_ledgerEntries_of_le hut he, hk⟩
      | settled van u _ hvan hsettled hu hu' hdup =>
          -- A settled account has booked the payment, so the first layer has found its key.
          obtain ⟨hut, htu⟩ := hlater u hu hu'
          obtain ⟨au, hau⟩ := (hinv u hut).2 htu
          obtain rfl := hrow van hvan
          obtain ⟨e, he, hk⟩ := ha.booked_of_settled hP hsettled hp
          have hid : e.virtualAccountId = van.id := by
            rw [(mem_creditsOf.mp (ha.keys p hp e he hk)).2.1, ha.evolves.id]
          have hmem := mem_ledgerEntries_of_le (Interference.concurrent.le hu) he
          rw [(isDuplicate_iff hau.trimmed (hP.trimmed hp) van.id).mpr ⟨e, hmem, hid, hk⟩] at hdup
          cases hdup
      | layerTwo van u _ _ hu hu' hused =>
          obtain ⟨e, he, hk⟩ := hused
          exact ⟨rfl, e, mem_ledgerEntries_of_le (hlater u hu hu').1 he, hk⟩
      | amount e hamount =>
          obtain ⟨hpos, hmax⟩ := hP.positive hp
          exact absurd ⟨hpos, hmax.trans (by decide)⟩ hamount
      | balance van v' u e hvan _ hu hu' _ hrow' hrange =>
          obtain ⟨hut, htu⟩ := hlater u hu hu'
          obtain ⟨au, hau⟩ := (hinv u hut).2 htu
          obtain rfl := hrow van hvan
          obtain rfl : v' = au := by
            rw [ha.evolves.id, hau.van] at hrow'
            exact (Option.some.inj hrow').symm
          -- The balance and the amount are both safe integers.
          obtain ⟨hpos, hmax⟩ := hP.positive hp
          obtain ⟨h₀, h₁⟩ := hau.received_le hP
          have hbig : maxSafeInteger + maxSafeInteger ≤ maxBigint := by decide
          exact absurd ⟨by omega, by omega⟩ hrange
      | noInvoice van e hvan hnone =>
          obtain ⟨inv, hinv'⟩ := ha.linked.invoice van.id van (vanByNumber_some hvan).1
          rw [hinv'] at hnone
          cases hnone

end

/-- What the deliveries leave in the database. -/
structure Delivered (db : Database) (v : VirtualAccount) (P : List RecordPaymentCommand) :
    Prop where
  credits : ((db.creditsOf v.id).map fun e => (e.idempotencyKey, e.amountCents)).Perm
    (P.map RecordPaymentCommand.payment)
  account : ∃ a, db.van v.id = some a ∧ a.receivedAmountCents = totalOf P ∧
    (a.status = .settled ↔ totalOf P = v.expectedAmountCents)
  invoice : db.statusOf v.invoiceId = some .repaid ↔ totalOf P = v.expectedAmountCents
  events : (db.repaidEvents v.invoiceId).length =
    if totalOf P = v.expectedAmountCents then 1 else 0

/-- When every payment has its key in the ledger, the deliveries are complete. -/
theorem Delivering.delivered {v a : VirtualAccount} {P : List RecordPaymentCommand}
    {db : Database} (h : Delivering v P db a) (hP : PaymentsTo v P)
    (hall : ∀ p ∈ P, ∃ e ∈ db.ledgerEntries, e.idempotencyKey = p.idempotencyKey) :
    Delivered db v P := by
  -- The credits are the payments in some order, from which the rest follows.
  have hperm := Books.payments_perm hP.payment_keys (h.balanced.side_keys v.id .credit)
    h.payment_mem fun q hq => by
      obtain ⟨p, hp, rfl⟩ := List.mem_map.mp hq
      obtain ⟨e, he, hk⟩ := hall p hp
      refine ⟨e.book, ?_, hk⟩
      rw [side_credit]
      exact List.mem_map_of_mem (h.keys p hp e he hk)
  have htotal : a.receivedAmountCents = totalOf P := by
    rw [h.received_eq, totalOf_eq]
    exact Books.total_eq_of_perm hperm
  have hsettled : a.status = .settled ↔ totalOf P = v.expectedAmountCents := by
    rw [h.settled, htotal, h.evolves.expectedAmountCents]
  refine ⟨?_, ⟨a, h.van, htotal, hsettled⟩, h.invoice.trans hsettled, ?_⟩
  · rw [side_credit, List.map_map] at hperm
    exact hperm
  · rw [h.events]
    simp only [hsettled]

/-- Exactly-once settlement. Whatever the order, the interleaving and the redeliveries, when
all calls have finished the account has received exactly the payments, and every delivery
was answered with 200. -/
theorem delivered_of_run {db : Database} (hdb : db.Initial) {w₀ : ServiceWorld}
    (h₀ : Runs RoutedStep (.start db) w₀) {v : VirtualAccount}
    {P : List RecordPaymentCommand} (hv : Awaiting w₀.db v P) (hP : PaymentsTo v P)
    {w : ServiceWorld} (h : Runs (DeliveryStep P) w₀.timeline w) (hq : w.quiescent = true)
    (hall : ∀ p ∈ P, ∃ s ∈ w.sessions, s.call = .recordPayment p) :
    Delivered w.db v P ∧
      ∀ s ∈ w.sessions, ∃ r, s.prog = .ret r ∧ (webhookAnswer r).status = 200 := by
  have hfit : ∀ ok : ServiceWorld → Step → Prop, Fits Interference.concurrent ok :=
    fun _ => Or.inl Interference.concurrent_shared
  have hstart : Delivering v P w₀.timeline.now v :=
    hv.delivering (linked_of_run hdb.van h₀ _ (le_refl _))
      (balanced_of_run ⟨hdb.van, hdb.ledger⟩ h₀ _ (le_refl _))
      (keysTrimmed_of_run hdb.ledger h₀ _ (le_refl _)) (repaid_of_run hdb h₀ _ (le_refl _))
  have hsafe := expectedSafe_of_run hdb.van h₀ _ (le_refl _) v.id v hv.van
  have hinv := delivering_of_run (Runs.evolving (hfit _) (Timeline.commits_start _ _) h₀)
    (linked_of_run hdb.van h₀) ⟨v, hstart⟩ hP hsafe h
  have hborn : ∀ s ∈ w.sessions, (∃ p ∈ P, s.call = .recordPayment p) ∧ w₀.timeline ≤ s.born :=
    Run.session_born (C := fun c born => (∃ p ∈ P, c = .recordPayment p) ∧ w₀.timeline ≤ born)
      (fun w c hrun hok => ⟨hok.1 c rfl, Runs.le (hfit _) hrun⟩) h
  -- Every session has finished, and its end says how it was answered.
  have hanswer : ∀ s ∈ w.sessions, ∀ p ∈ P, s.call = .recordPayment p →
      ∃ r, s.prog = .ret r ∧ (webhookAnswer r).status = 200 ∧
        ∃ e ∈ w.db.ledgerEntries, e.idempotencyKey = p.idempotencyKey := by
    intro s hs p hp hcall
    have hfinished := List.all_eq_true.mp hq s hs
    cases hprog : s.prog with
    | call c k =>
        rw [hprog] at hfinished
        cases hfinished
    | ret r =>
        obtain ⟨time, htime, hend⟩ :=
          Runs.ended (hfit _) (fun _ i env hok => hok.2 i env rfl) h hs hprog
        rw [hcall] at hend
        exact ⟨r, rfl, acknowledged_of_ended hinv hP hsafe hp hend (hborn s hs).2 htime⟩
  obtain ⟨a, ha⟩ := (hinv _ (le_refl _)).2 (Runs.le (hfit _) h)
  refine ⟨ha.delivered hP fun p hp => ?_, fun s hs => ?_⟩
  · obtain ⟨s, hs, hcall⟩ := hall p hp
    obtain ⟨-, -, -, hbooked⟩ := hanswer s hs p hp hcall
    exact hbooked
  · obtain ⟨⟨p, hp, hcall⟩, -⟩ := hborn s hs
    obtain ⟨r, hr, hok, -⟩ := hanswer s hs p hp hcall
    exact ⟨r, hr, hok⟩

/-- The check of `DeliveryStep`. -/
def deliveryCheck (P : List RecordPaymentCommand) (_ : ServiceWorld) : Step → Bool
  | .spawn c => P.any fun p => c == .recordPayment p
  | .step _ env => !env.fault

/-- A step that passes `deliveryCheck` meets `DeliveryStep`. -/
theorem deliveryStep_of_check {P : List RecordPaymentCommand} (w : ServiceWorld) (a : Step)
    (h : deliveryCheck P w a = true) : DeliveryStep P w a := by
  cases a with
  | step i env =>
      refine ⟨fun _ hc => (nomatch hc), ?_⟩
      rintro _ _ ⟨⟩
      simpa [deliveryCheck] using h
  | spawn c =>
      refine ⟨?_, fun _ _ ha => (nomatch ha)⟩
      rintro _ ⟨⟩
      obtain ⟨p, hp, hc⟩ := List.any_eq_true.mp h
      exact ⟨p, hp, beq_iff_eq.mp hc⟩

/-- The account of the sample invoice. -/
def sampleVan : VirtualAccount :=
  { id := sampleId
    invoiceId := sampleId
    accountNumber := "VSE11000"
    ifscCode := "YESB0CMSNOC"
    expectedAmountCents := 1000
    receivedAmountCents := 0
    status := .active
    expiresAt := 1 + vanLifetime
    createdAt := 1 }

/-- Two payments that settle the sample account. -/
def samplePayments : List RecordPaymentCommand :=
  [samplePayment 400 "k1", samplePayment 600 "k2"]

/-- Their deliveries overlap, and the first one is delivered again after the settlement. -/
theorem delivered_overlapping_payments : ∃ w₀ w : ServiceWorld,
    Runs RoutedStep (.start sampleDb) w₀ ∧ Awaiting w₀.db sampleVan samplePayments ∧
      Runs (DeliveryStep samplePayments) w₀.timeline w ∧ w.sessions.length = 3 ∧
      Delivered w.db sampleVan samplePayments ∧
      ∀ s ∈ w.sessions, ∃ r, s.prog = .ret r ∧ (webhookAnswer r).status = 200 := by
  have haccount : (play (routedCheck (sampleRequests 1000 "k1")) (.start sampleDb)
      stepsToAccount).map (fun w₀ => (w₀.db.van sampleId,
        w₀.db.ledgerEntries.map LedgerEntry.idempotencyKey)) =
      some (some sampleVan, ["advance-1"]) := by decide +kernel
  obtain ⟨w₀, hw₀, hl⟩ := Option.map_eq_some_iff.mp haccount
  simp only [Prod.mk.injEq] at hl
  obtain ⟨hvan, hkeys⟩ := hl
  have hdeliveries : ((play (routedCheck (sampleRequests 1000 "k1")) (.start sampleDb)
      stepsToAccount).bind fun w₀ => (play (deliveryCheck samplePayments) w₀.timeline
        (.spawn (.recordPayment (samplePayment 400 "k1")) ::
          .spawn (.recordPayment (samplePayment 600 "k2")) :: steps 0 3 ++ steps 1 2 ++
          steps 0 7 ++ steps 1 15 ++
          .spawn (.recordPayment (samplePayment 400 "k1")) :: steps 2 2)).map fun w =>
        (w.quiescent, w.sessions.map (·.call))) =
      some (true, [.recordPayment (samplePayment 400 "k1"),
        .recordPayment (samplePayment 600 "k2"), .recordPayment (samplePayment 400 "k1")]) := by
    decide +kernel
  rw [hw₀, Option.bind_some] at hdeliveries
  obtain ⟨w, hw, hl⟩ := Option.map_eq_some_iff.mp hdeliveries
  simp only [Prod.mk.injEq] at hl
  obtain ⟨hq, hcalls⟩ := hl
  have hrun₀ := runs_of_play routedStep_of_check hw₀
  have hrun := runs_of_play deliveryStep_of_check hw
  have hawait : Awaiting w₀.db sampleVan samplePayments := by
    refine ⟨hvan, rfl, rfl, fun p hp e he hk => ?_⟩
    have hmem := List.mem_map_of_mem (f := LedgerEntry.idempotencyKey) he
    rw [hkeys, hk] at hmem
    have hfresh : ∀ p ∈ samplePayments, p.idempotencyKey ∉ ["advance-1"] := by decide
    exact hfresh p hp hmem
  have hpayments : PaymentsTo sampleVan samplePayments := by
    have hbody : ∀ p ∈ samplePayments, recordPaymentSchema p = some p := by decide +kernel
    exact ⟨fun p hp => ⟨p, hbody p hp⟩, by decide, by decide, by decide⟩
  have hlength : w.sessions.length = 3 := by
    simpa using congrArg List.length hcalls
  have hall : ∀ p ∈ samplePayments, ∃ s ∈ w.sessions, s.call = .recordPayment p := by
    have hmem : ∀ p ∈ samplePayments, Call.recordPayment p ∈ w.sessions.map (·.call) := by
      rw [hcalls]
      decide
    exact fun p hp => List.mem_map.mp (hmem p hp)
  exact ⟨w₀, w, hrun₀, hawait, hrun, hlength,
    delivered_of_run initial_sampleDb hrun₀ hawait hpayments hrun hq hall⟩

end Vanguard
