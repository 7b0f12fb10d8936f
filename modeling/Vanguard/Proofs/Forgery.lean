import Vanguard.Services.Webhook

/-!
# `Vanguard.Proofs.Forgery`: who gets past the signature check

A run of the payment webhook: the bank signs messages, and an adversary without
`WEBHOOK_SECRET` sends requests. The HMAC is ideal: a header decodes to the digest of a
body only if the adversary has seen that digest, on a message of the bank or in an earlier
response (`Admissible`).

`unforged_of_run` proves that only messages of the bank get past the check, and that no
response shows the digest of another body, in the runs without a probe: a request for a
body that the bank has not signed, with a header that decodes to 32 bytes. A probe gets the
digest of its body in the response (`not_unforged_of_probe`), and `forged_payment` is a run
that uses it.
-/

set_option autoImplicit false

namespace Vanguard

/-! ### Runs -/

/-- A request and what the endpoint did with it. -/
structure Exchange where
  request : WebhookRequest
  verdict : Verdict
  response : WebhookResponse
  deriving DecidableEq

/-- The messages that the bank has signed, and the exchanges so far. -/
structure WebhookWorld where
  signed : List Bytes
  exchanges : List Exchange

/-- The bank signs a message, or the adversary sends a request. `handler` is the response
of the handler, should the request get there. -/
inductive WebhookStep where
  | sign (rawBody : Bytes)
  | send (req : WebhookRequest) (handler : HttpAnswer)

/-- The adversary has seen the digest of the bytes. A response shows it as a header that
decodes to it (`Fragment.hexDecode_render`). -/
def WebhookWorld.Knows (w : WebhookWorld) (rawBody : Bytes) : Prop :=
  rawBody ∈ w.signed ∨ ∃ x ∈ w.exchanges, .digest rawBody ∈ x.response.message

section
variable (hmac : Bytes → Bytes) (nodeEnv : NodeEnv)

/-- One step: the bank signs a body, or a request is sent and answered. -/
def WebhookWorld.step (w : WebhookWorld) : WebhookStep → WebhookWorld
  | .sign rawBody => { w with signed := w.signed ++ [rawBody] }
  | .send req handler =>
    let out := paymentWebhook hmac nodeEnv req handler
    { w with exchanges := w.exchanges ++ [⟨req, out.1, out.2⟩] }

/-- The HMAC is ideal. -/
def Admissible (w : WebhookWorld) (a : WebhookStep) : Prop :=
  ∀ req handler signature, a = .send req handler → req.signature = some (.one signature) →
    hexDecode signature.toList = hmac (captureRawBody nodeEnv req) →
    w.Knows (captureRawBody nodeEnv req)

/-- The worlds reached by admissible steps that `ok` allows. -/
inductive WebhookRuns (ok : WebhookWorld → WebhookStep → Prop) : WebhookWorld → Prop where
  | start : WebhookRuns ok ⟨[], []⟩
  | step {w : WebhookWorld} (a : WebhookStep) (h : WebhookRuns ok w)
      (hadm : Admissible hmac nodeEnv w a) (hok : ok w a) :
      WebhookRuns ok (w.step hmac nodeEnv a)

/-- No request for a body that the bank has not signed has a header of 32 bytes. -/
def NoProbe (w : WebhookWorld) (a : WebhookStep) : Prop :=
  ∀ req handler signature, a = .send req handler → req.signature = some (.one signature) →
    captureRawBody nodeEnv req ∉ w.signed → (hexDecode signature.toList).length ≠ 32

/-- Forgery resistance. -/
structure Unforged (w : WebhookWorld) : Prop where
  accepted : ∀ x ∈ w.exchanges, x.verdict = .next →
    captureRawBody nodeEnv x.request ∈ w.signed
  secret : ∀ rawBody, w.Knows rawBody → rawBody ∈ w.signed

end

/-! ### The check -/

section
variable {hmac : Bytes → Bytes} {nodeEnv : NodeEnv}

/-- The check of a header, outside a test. -/
theorem verify_one (hnode : nodeEnv ≠ .test) (signature : String) (rawBody : Bytes) :
    verifyWebhookSignature hmac nodeEnv (some (.one signature)) (some rawBody) =
      if signature = "" then
        .respond ⟨401, some "MISSING_WEBHOOK_SIGNATURE",
          [.text "X-Webhook-Signature header is required"]⟩
      else if (hexDecode signature.toList).length ≠ (hmac rawBody).length then
        .respond ⟨401, some "INVALID_WEBHOOK_SIGNATURE",
          [.text "Webhook signature verification failed"]⟩
      else if hexDecode signature.toList ≠ hmac rawBody then
        .respond ⟨401, some "INVALID_WEBHOOK_SIGNATURE",
          [.text "FAILED. Expected: ", .digest rawBody]⟩
      else .next := by
  simp only [verifyWebhookSignature, if_neg hnode, hexDecode_hexEncode]

/-- What gets past the check carries the digest of its body. -/
theorem digest_of_next (hnode : nodeEnv ≠ .test) {header : Option HeaderValue}
    {rawBody : Bytes}
    (h : verifyWebhookSignature hmac nodeEnv header (some rawBody) = .next) :
    ∃ signature, header = some (.one signature) ∧
      hexDecode signature.toList = hmac rawBody := by
  cases header with
  | none => simp [verifyWebhookSignature, hnode] at h
  | some value =>
      cases value with
      | many values => simp [verifyWebhookSignature, hnode] at h
      | one signature =>
          rw [verify_one hnode] at h
          split at h
          · cases h
          · split at h
            · cases h
            · split at h
              · cases h
              · exact ⟨signature, rfl, not_not.mp ‹_›⟩

/-- A digest in a response of the check is the one of the body of the request, whose header
has the length of a digest. -/
theorem header_of_digest (hnode : nodeEnv ≠ .test) {header : Option HeaderValue}
    {rawBody b : Bytes} {r : WebhookResponse}
    (h : verifyWebhookSignature hmac nodeEnv header (some rawBody) = .respond r)
    (hb : .digest b ∈ r.message) : b = rawBody ∧ ∃ signature,
      header = some (.one signature) ∧
        (hexDecode signature.toList).length = (hmac rawBody).length := by
  cases header with
  | none =>
      simp only [verifyWebhookSignature, if_neg hnode, Verdict.respond.injEq] at h
      simp [← h] at hb
  | some value =>
      cases value with
      | many values =>
          simp only [verifyWebhookSignature, if_neg hnode, Verdict.respond.injEq] at h
          simp [← h] at hb
      | one signature =>
          rw [verify_one hnode] at h
          split at h
          · cases h
            simp at hb
          · split at h
            · cases h
              simp at hb
            · rename_i hlength
              split at h
              · cases h
                exact ⟨by simpa using hb, signature, rfl, not_not.mp hlength⟩
              · cases h

/-- A header of the right length with another value gets the digest. -/
theorem verify_probe (hnode : nodeEnv ≠ .test) {signature : String} {rawBody : Bytes}
    (hlength : (hexDecode signature.toList).length = (hmac rawBody).length)
    (hne : hexDecode signature.toList ≠ hmac rawBody) :
    verifyWebhookSignature hmac nodeEnv (some (.one signature)) (some rawBody) =
      .respond ⟨401, some "INVALID_WEBHOOK_SIGNATURE",
        [.text "FAILED. Expected: ", .digest rawBody]⟩ := by
  have hempty : signature ≠ "" := by
    rintro rfl
    refine hne ?_
    rw [List.eq_nil_of_length_eq_zero (hlength.symm : (hmac rawBody).length = 0)]
    rfl
  rw [verify_one hnode, if_neg hempty, if_neg (not_not.mpr hlength), if_pos hne]

/-- A header with the digest of the body gets past the check. -/
theorem verify_digest (hnode : nodeEnv ≠ .test) {signature : String} {rawBody : Bytes}
    (hempty : signature ≠ "") (h : hexDecode signature.toList = hmac rawBody) :
    verifyWebhookSignature hmac nodeEnv (some (.one signature)) (some rawBody) = .next := by
  rw [verify_one hnode, if_neg hempty, if_neg (not_not.mpr (congrArg List.length h)),
    if_neg (not_not.mpr h)]

/-- The endpoint, by what its check does. -/
theorem paymentWebhook_cases (hmac : Bytes → Bytes) (nodeEnv : NodeEnv) (req : WebhookRequest)
    (handler : HttpAnswer) :
    (verifyWebhookSignature hmac nodeEnv req.signature (some (captureRawBody nodeEnv req)) =
        .next ∧ paymentWebhook hmac nodeEnv req handler =
          (.next, ⟨handler.status, handler.code, [.text handler.message]⟩)) ∨
      ∃ r, verifyWebhookSignature hmac nodeEnv req.signature
          (some (captureRawBody nodeEnv req)) = .respond r ∧
        paymentWebhook hmac nodeEnv req handler = (.respond r, r) := by
  unfold paymentWebhook
  cases h : verifyWebhookSignature hmac nodeEnv req.signature
      (some (captureRawBody nodeEnv req)) with
  | next => exact Or.inl ⟨rfl, rfl⟩
  | respond r => exact Or.inr ⟨r, rfl, rfl⟩

/-! ### Forgery resistance -/

/-- One more exchange, which accepts messages of the bank only and shows their digests
only. -/
theorem Unforged.exchange {w : WebhookWorld} (h : Unforged nodeEnv w) {x : Exchange}
    (hnext : x.verdict = .next → captureRawBody nodeEnv x.request ∈ w.signed)
    (hdigest : ∀ b, .digest b ∈ x.response.message → b ∈ w.signed) :
    Unforged nodeEnv { w with exchanges := w.exchanges ++ [x] } := by
  constructor
  · intro y hy hv
    rcases List.mem_append.mp hy with hy | hy
    · exact h.accepted y hy hv
    · obtain rfl := List.mem_singleton.mp hy
      exact hnext hv
  · rintro b (hb | ⟨y, hy, hb⟩)
    · exact hb
    · rcases List.mem_append.mp hy with hy | hy
      · exact h.secret b (Or.inr ⟨y, hy, hb⟩)
      · obtain rfl := List.mem_singleton.mp hy
        exact hdigest b hb

/-- One admissible step without a probe. -/
theorem Unforged.step {w : WebhookWorld} (h : Unforged nodeEnv w) (hnode : nodeEnv ≠ .test)
    (hlen : ∀ b, (hmac b).length = 32) {a : WebhookStep} (hadm : Admissible hmac nodeEnv w a)
    (hok : NoProbe nodeEnv w a) : Unforged nodeEnv (w.step hmac nodeEnv a) := by
  cases a with
  | sign rawBody =>
      refine ⟨fun x hx hv => List.mem_append_left _ (h.accepted x hx hv), fun b hb => ?_⟩
      rcases hb with hb | hb
      · exact hb
      · exact List.mem_append_left _ (h.secret b (Or.inr hb))
  | send req handler =>
      rw [WebhookWorld.step]
      rcases paymentWebhook_cases hmac nodeEnv req handler with ⟨hv, hout⟩ | ⟨r, hv, hout⟩
      · -- Accepted: the header is the digest of the body, so the adversary knows it.
        rw [hout]
        obtain ⟨signature, hheader, hdigest⟩ := digest_of_next hnode hv
        refine h.exchange (fun _ => ?_) fun b hb => by simp at hb
        exact h.secret _ (hadm req handler signature rfl hheader hdigest)
      · rw [hout]
        refine h.exchange (fun hnext => nomatch hnext) fun b hb => ?_
        -- Only the mismatch branch shows a digest.
        obtain ⟨rfl, signature, hheader, hlength⟩ := header_of_digest hnode hv hb
        by_contra hunsigned
        exact hok req handler signature rfl hheader hunsigned (hlength.trans (hlen _))

/-- The adversary has seen the digests in the answer to a request. -/
theorem WebhookWorld.knows_of_respond {w : WebhookWorld} {req : WebhookRequest}
    {handler : HttpAnswer} {r : WebhookResponse} {b : Bytes}
    (h : verifyWebhookSignature hmac nodeEnv req.signature (some (captureRawBody nodeEnv req)) =
      .respond r) (hb : .digest b ∈ r.message) :
    (w.step hmac nodeEnv (.send req handler)).Knows b := by
  refine Or.inr ⟨⟨req, .respond r, r⟩, List.mem_append_right _ ?_, hb⟩
  rw [paymentWebhook, h]
  exact List.mem_singleton_self _

/-- A probe breaks forgery resistance at once: it is accepted, or it gets the digest of its
body. -/
theorem not_unforged_of_probe (hnode : nodeEnv ≠ .test) (hlen : ∀ b, (hmac b).length = 32)
    {w : WebhookWorld} {a : WebhookStep} (h : ¬ NoProbe nodeEnv w a) :
    ¬ Unforged nodeEnv (w.step hmac nodeEnv a) := by
  simp only [NoProbe, not_forall, not_not] at h
  obtain ⟨req, handler, signature, rfl, hheader, hunsigned, hlength⟩ := h
  intro hunforged
  have hempty : signature ≠ "" := by
    rintro rfl
    cases hlength
  by_cases hdigest : hexDecode signature.toList = hmac (captureRawBody nodeEnv req)
  · have hv : verifyWebhookSignature hmac nodeEnv req.signature
        (some (captureRawBody nodeEnv req)) = .next := by
      rw [hheader]
      exact verify_digest hnode hempty hdigest
    rw [WebhookWorld.step, paymentWebhook, hv] at hunforged
    have haccepted := hunforged.accepted
      ⟨req, .next, ⟨handler.status, handler.code, [.text handler.message]⟩⟩
      (List.mem_append_right _ (List.mem_singleton_self _)) rfl
    exact hunsigned haccepted
  · -- The answer to another value of the same length shows the digest.
    have hv : verifyWebhookSignature hmac nodeEnv req.signature
        (some (captureRawBody nodeEnv req)) =
        .respond ⟨401, some "INVALID_WEBHOOK_SIGNATURE",
          [.text "FAILED. Expected: ", .digest (captureRawBody nodeEnv req)]⟩ := by
      rw [hheader]
      exact verify_probe hnode (hlength.trans (hlen _).symm) hdigest
    exact hunsigned (hunforged.secret _ (WebhookWorld.knows_of_respond hv (by simp)))

/-- Forgery resistance in every world of a run without a probe. -/
theorem unforged_of_run (hnode : nodeEnv ≠ .test) (hlen : ∀ b, (hmac b).length = 32)
    {w : WebhookWorld} (h : WebhookRuns hmac nodeEnv (NoProbe nodeEnv) w) :
    Unforged nodeEnv w := by
  induction h with
  | start =>
      refine ⟨fun x hx => (nomatch hx), ?_⟩
      rintro b (hb | ⟨x, hx, -⟩)
      · exact hb
      · cases hx
  | step a _ hadm hok ih => exact ih.step hnode hlen hadm hok

end

/-! ### A forged payment -/

/-- The body of a payment of 1000 paise. -/
def sampleBody : Bytes :=
  ("\x7b\"account_number\":\"VSE11000\",\"amount_cents\":1000,\"idempotency_key\":\"k1\"," ++
    "\"paid_at\":\"2026-04-01T00:00:00.000Z\"\x7d").toList.map fun c => UInt8.ofNat c.toNat

/-- Its HMAC-SHA256 under the secret `0123456789abcdef0123456789abcdef`. -/
def sampleSignature : String :=
  "f7e426cb6756ea2c6d2e4354759bbcd648d8227218a4e576596c3f4b15177f79"

/-- A function that agrees with this HMAC on the body above. -/
def sampleHmac (rawBody : Bytes) : Bytes :=
  if rawBody = sampleBody then hexDecode sampleSignature.toList else List.replicate 32 0

/-- The tag of the sample body is the sample signature. -/
theorem sampleHmac_sampleBody : sampleHmac sampleBody = hexDecode sampleSignature.toList :=
  if_pos rfl

example : (Fragment.digest sampleBody).render sampleHmac = sampleSignature := by
  rw [Fragment.render, sampleHmac_sampleBody]
  decide +kernel

/-- A tag has 32 bytes. -/
theorem length_sampleHmac (rawBody : Bytes) : (sampleHmac rawBody).length = 32 := by
  unfold sampleHmac
  split
  · decide
  · exact List.length_replicate

/-- The sample body with the given signature. -/
def sampleWebhook (signature : String) : WebhookStep :=
  .send ⟨some (.one signature), none, [sampleBody]⟩ ⟨200, none, ""⟩

/-- The raw body of the sample request is the sample body. -/
theorem captureRawBody_sample (signature : String) :
    captureRawBody .production ⟨some (.one signature), none, [sampleBody]⟩ = sampleBody :=
  List.append_nil _

/-- Sixty-four zeros. -/
def zeroSignature : String := String.ofList (List.replicate 64 '0')

/-- The check of a request with the sample body, in the list of verdicts. -/
theorem verdicts_sample (w : WebhookWorld) (signature : String) :
    (w.step sampleHmac .production (sampleWebhook signature)).exchanges.map Exchange.verdict =
      w.exchanges.map Exchange.verdict ++
        [verifyWebhookSignature sampleHmac .production (some (.one signature))
          (some sampleBody)] := by
  rw [sampleWebhook, WebhookWorld.step, List.map_append]
  rcases paymentWebhook_cases sampleHmac .production ⟨some (.one signature), none, [sampleBody]⟩
    ⟨200, none, ""⟩ with ⟨hv, hout⟩ | ⟨r, hv, hout⟩
  · rw [captureRawBody_sample] at hv
    rw [hv, hout]
    rfl
  · rw [captureRawBody_sample] at hv
    rw [hv, hout]
    rfl

/-- The sample request passes the verification. -/
theorem verify_sample : verifyWebhookSignature sampleHmac .production
    (some (.one sampleSignature)) (some sampleBody) = .next :=
  verify_digest (by decide) (by decide) sampleHmac_sampleBody.symm

/-- The signature of zeros is not the tag. -/
theorem zeroSignature_ne : hexDecode zeroSignature.toList ≠ sampleHmac sampleBody := by
  rw [sampleHmac_sampleBody]
  decide +kernel

/-- The zeros have the length of a digest. -/
theorem verify_zero : verifyWebhookSignature sampleHmac .production
    (some (.one zeroSignature)) (some sampleBody) =
      .respond ⟨401, some "INVALID_WEBHOOK_SIGNATURE",
        [.text "FAILED. Expected: ", .digest sampleBody]⟩ := by
  refine verify_probe (by decide) ?_ zeroSignature_ne
  rw [length_sampleHmac]
  decide +kernel

/-- The bank signs the sample body, and its request gets past the check. -/
theorem unforged_of_bank_payment : ∃ w : WebhookWorld,
    WebhookRuns sampleHmac .production (NoProbe .production) w ∧
      w.exchanges.map Exchange.verdict = [.next] ∧ Unforged .production w := by
  have hrun : WebhookRuns sampleHmac .production (NoProbe .production)
      (((⟨[], []⟩ : WebhookWorld).step sampleHmac .production (.sign sampleBody)).step
        sampleHmac .production (sampleWebhook sampleSignature)) := by
    refine .step _ (.step _ .start ?_ ?_) ?_ ?_
    · exact fun _ _ _ ha => nomatch ha
    · exact fun _ _ _ ha => nomatch ha
    · rintro _ _ _ ⟨⟩ - -
      rw [captureRawBody_sample]
      exact Or.inl List.mem_cons_self
    · rintro _ _ _ ⟨⟩ - hunsigned
      rw [captureRawBody_sample] at hunsigned
      exact absurd List.mem_cons_self hunsigned
  refine ⟨_, hrun, ?_, unforged_of_run (by decide) length_sampleHmac hrun⟩
  rw [verdicts_sample, verify_sample]
  rfl

/-- The adversary sends a payment with a signature of zeros, copies the digest from the
response, and sends the payment again. The bank has signed nothing. -/
theorem forged_payment : ∃ w : WebhookWorld,
    WebhookRuns sampleHmac .production (fun _ _ => True) w ∧ w.signed = [] ∧
      w.exchanges.map Exchange.verdict =
        [.respond ⟨401, some "INVALID_WEBHOOK_SIGNATURE",
          [.text "FAILED. Expected: ", .digest sampleBody]⟩, .next] ∧
      ¬ Unforged .production w := by
  have hverdicts : (((⟨[], []⟩ : WebhookWorld).step sampleHmac .production
      (sampleWebhook zeroSignature)).step sampleHmac .production
      (sampleWebhook sampleSignature)).exchanges.map Exchange.verdict =
      [.respond ⟨401, some "INVALID_WEBHOOK_SIGNATURE",
        [.text "FAILED. Expected: ", .digest sampleBody]⟩, .next] := by
    rw [verdicts_sample, verdicts_sample, verify_zero, verify_sample]
    rfl
  refine ⟨_, .step _ (.step _ .start ?_ trivial) ?_ trivial, rfl, hverdicts, fun h => ?_⟩
  · rintro _ _ _ ⟨⟩ ⟨⟩ heq
    rw [captureRawBody_sample] at heq
    exact absurd heq zeroSignature_ne
  · rintro _ _ _ ⟨⟩ - -
    -- The adversary has read the digest in the answer to the zeros.
    exact WebhookWorld.knows_of_respond verify_zero (by simp [captureRawBody_sample])
  · have hnext : Verdict.next ∈ [Verdict.respond ⟨401, some "INVALID_WEBHOOK_SIGNATURE",
        [.text "FAILED. Expected: ", .digest sampleBody]⟩, .next] :=
      List.mem_cons_of_mem _ List.mem_cons_self
    rw [← hverdicts] at hnext
    obtain ⟨x, hx, hv⟩ := List.mem_map.mp hnext
    cases h.accepted x hx hv

end Vanguard
