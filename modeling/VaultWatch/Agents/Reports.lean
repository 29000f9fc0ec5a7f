import VaultWatch.Agents.PaymentGate
import VaultWatch.Agents.Replay
import VaultWatch.Lib.Markup
import VaultWatch.Lib.Text
import Mathlib.Data.List.Forall2

/-! # The printable report

A case record is rendered as a page of HTML (`agents-python/app/reports.py`). Whatever of
the record gets into the page is escaped. -/
namespace VaultWatch.Agents.Reports

open VaultWatch.Lib.Markup
open VaultWatch.Lib.Text (quote)

/-! ## Rendering -/

/-- `v.replace(old, new)`, for single characters. -/
def replace (v : Value) (old new : Char) : Except Raised String :=
  match v with
  | .str s => .ok (s.map fun c => if c = old then new else c)
  | _ => .error (.exception "AttributeError")

def text : Value → Except Raised String
  | .str s => .ok s
  | _ => .error (.exception "TypeError")

/-- `separator.join(v)`. -/
def join (separator : String) (v : Value) : Except Raised String := do
  let items ← v.iter
  let texts ← items.mapM text
  return separator.intercalate texts

/-- `"".join(row(item) for item in v)`. -/
def rowsOf (row : Value → Except Raised String) (v : Value) : Except Raised String := do
  let items ← v.iter
  let rows ← items.mapM row
  return String.join rows

/-- `s.capitalize()`. -/
def capitalize (s : String) : String :=
  match s.toList with
  | [] => ""
  | c :: cs => String.ofList (c.toUpper :: cs.map Char.toLower)

def familiarity (value : Value) (subject : String) : String :=
  match value with
  | .bool true => "New " ++ subject
  | .bool false => "Known " ++ subject
  | _ => capitalize subject ++ " familiarity not recorded"

section
variable (host : Host)

abbrev esc (value : Value) : String := escape (host.str value)

def eventRow (e : Value) : Except Raised String := do
  let timestamp ← e.getItem "timestamp"
  let stage ← e.get "stage" (.str "alert")
  let label ← e.get "label" (← e.get "title" (.str ""))
  return "<tr><td>" ++ esc host timestamp ++ "</td><td>" ++ esc host stage ++ "</td><td>" ++
    esc host label ++ "</td></tr>"

def receiptRow (e : Value) : Except Raised String := do
  let seq ← e.getItem "seq"
  let eventType ← e.getItem "event_type"
  let hash ← e.getItem "hash"
  return "<tr><td>" ++ esc host seq ++ "</td><td>" ++ esc host eventType ++
    "</td><td class=\"hash\">" ++ esc host hash ++ "</td></tr>"

def finding (rule : Value) : Except Raised String := do
  let name ← replace (← rule.getItem "rule") '_' ' '
  let detail ← rule.getItem "detail"
  return "<li><strong>" ++ escape name ++ "</strong>: " ++ esc host detail ++ "</li>"

/-- What `render_report` reads before it writes the page. -/
structure Locals where
  transactionId : Value
  result : Value
  tx : Value
  review : Value
  audit : Value
  payment : Value
  rows : String
  receipts : String
  decision : Value
  journey : String
  findings : String
  case : Value
  screen : String
  summary : Value
  integrity : String

def defaultPayment : Value :=
  .dict [("action", .str "not_evaluated"),
    ("reasons", .strs ["This record predates payment controls."])]

def defaultDecision : Value :=
  .dict [("title", .str "Closed without alert"), ("severity", .str "low")]

def screening (case : Value) : Except Raised String := do
  if case.truthy then
    return if (← case.get "sanctions_hit").truthy then "Match found" else "No match"
  else
    return "Not screened: case closed before investigation"

def summaryOf (case : Value) : Except Raised Value :=
  if case.truthy then case.getItem "summary"
  else .ok (.str ("Initial checks did not require an investigation. " ++
    "The case closed without an alert."))

def integrityOf (verification : Dict) : Except Raised String := do
  let current := Dict.get verification "verify"
  if current.truthy then
    return if (← current.getItem "valid").truthy then "Valid" else "BROKEN"
  else
    return "Unavailable"

def Locals.read (record verification : Dict) : Except Raised Locals := do
  let result ← Dict.getItem record "result"
  let tx ← result.get "transaction" (.dict [])
  let review ← result.get "review" (.dict [])
  let audit ← result.get "audit" (.dict [])
  let payment := (← result.get "payment").or defaultPayment
  let rows ← rowsOf (eventRow host) (← result.get "events" (.list []))
  let receipts ← rowsOf (receiptRow host) (← audit.get "entries" (.list []))
  let decision := (← result.get "alert").or defaultDecision
  let origin ← (← review.get "origin" (.dict [])).get "name" (.str "Not recorded")
  let location ← (← review.get "current_location" (.dict [])).get "name" (.str "Not recorded")
  let journey := host.str origin ++ " → " ++ host.str location
  let findings ← rowsOf (finding host)
    (← ((← result.get "rules").or (.dict [])).get "triggered_rules" (.list []))
  let case ← result.get "case"
  let screen ← screening case
  let summary ← summaryOf case
  let integrity ← integrityOf verification
  let transactionId ← Dict.getItem record "transaction_id"
  return { transactionId, result, tx, review, audit, payment, rows, receipts, decision, journey,
           findings, case, screen, summary, integrity }

/-! `json.dumps(value, indent=2, ensure_ascii=False)`. -/

/-- A new line, indented. -/
def newLine (level : Nat) : String := String.ofList ('\n' :: List.replicate (2 * level) ' ')

mutual
def dumps (level : Nat) : Value → String
  | .none => "null"
  | .bool b => if b then "true" else "false"
  | .int n => toString n
  | .float x => host.str (.float x)
  | .str s => quote s
  | .list [] => "[]"
  | .list (item :: items) =>
    "[" ++ newLine (level + 1) ++ dumps (level + 1) item ++ dumpsItems (level + 1) items ++
      newLine level ++ "]"
  | .dict [] => "\x7b\x7d"
  | .dict ((key, value) :: fields) =>
    "\x7b" ++ newLine (level + 1) ++ quote key ++ ": " ++ dumps (level + 1) value ++
      dumpsFields (level + 1) fields ++ newLine level ++ "\x7d"

def dumpsItems (level : Nat) : List Value → String
  | [] => ""
  | item :: items => "," ++ newLine level ++ dumps level item ++ dumpsItems level items

def dumpsFields (level : Nat) : Dict → String
  | [] => ""
  | (key, value) :: fields =>
    "," ++ newLine level ++ quote key ++ ": " ++ dumps level value ++ dumpsFields level fields
end

/-! The parts of the page, in its order. -/

def opening (l : Locals) : Except Raised String := do
  let account ← l.tx.get "account_id" (.str "")
  let mode ← l.result.get "model_mode" (.str "unknown")
  return "<!doctype html><html lang=\"en\"><meta charset=\"utf-8\"><title>VaultWatch case " ++
    esc host l.transactionId ++ "</title>\n" ++
    "<style>body\x7bfont:15px/1.6 system-ui;max-width:1000px;margin:40px auto;padding:0 24px;" ++
    "color:#17212b\x7dh1\x7bmargin-bottom:0\x7dh2\x7bfont-size:19px;margin-top:32px\x7d" ++
    ".note\x7bbackground:#edf3f7;padding:16px;border-left:4px solid #376d82\x7d" ++
    "table\x7bborder-collapse:collapse;width:100%;font-size:13px\x7d" ++
    "td,th\x7bborder-bottom:1px solid #ddd;padding:9px;text-align:left;vertical-align:top\x7d" ++
    "pre\x7bwhite-space:pre-wrap;overflow-wrap:anywhere;background:#f4f6f8;padding:16px;" ++
    "font-size:12px\x7d.hash\x7bword-break:break-all;font:11px monospace\x7d" ++
    "section\x7bbreak-inside:avoid\x7d@media print\x7bbody\x7bmargin:0;max-width:none\x7d" ++
    "button\x7bdisplay:none\x7d\x7d</style>\n" ++
    "<h1>VaultWatch audit report</h1><p>" ++ esc host l.transactionId ++ " · " ++
    esc host account ++ "</p>\n" ++
    "<p class=\"note\">Synthetic demonstration · " ++ esc host mode ++
    " model mode · No money moved. No regulatory filing. Hash verification checks record " ++
    "integrity, not the truth of a fraud allegation.</p>\n"

def outcome (l : Locals) : Except Raised String := do
  let amount ← l.tx.get "amount" (.str "")
  let currency ← l.tx.get "currency" (.str "")
  let title ← l.decision.getItem "title"
  let severity ← l.decision.getItem "severity"
  let status ← l.audit.get "status" (.str "not recorded")
  let action ← l.payment.getItem "action"
  let reasons ← join " " (← l.payment.getItem "reasons")
  let execution ← l.payment.get "execution_status" (.str "not recorded")
  return "<h2>" ++ esc host amount ++ " " ++ esc host currency ++ " · " ++ esc host title ++
    "</h2><p>Final severity: <strong>" ++ esc host severity ++
    "</strong>. Processing audit at completion: <strong>" ++ esc host status ++
    "</strong>.</p>\n" ++
    "<h2>Case summary</h2><p>" ++ esc host l.summary ++ "</p>\n" ++
    "<h2>Payment decision: " ++ esc host action ++ "</h2><p>" ++ escape reasons ++ "</p>\n" ++
    "<p>Execution: " ++ esc host execution ++
    ". Local simulation only; no money moved.</p>\n"

def details (l : Locals) (verification : Dict) : Except Raised String := do
  let recipient ← l.tx.get "beneficiary_name"
    (← l.tx.get "beneficiary_id" (.str "Not recorded"))
  let distance ← l.review.get "distance_km" (.str "Not recorded")
  let elapsed ← l.review.get "elapsed_minutes" (.str "Not recorded")
  let newDevice ← l.review.get "new_device"
  let newBeneficiary ← l.review.get "new_beneficiary"
  let fused ← l.decision.get "fused_with_security_event"
  let note ← l.review.get "location_note" (.str "Location evidence was not recorded.")
  return "<table><tr><th>Recipient</th><td>" ++ esc host recipient ++ "</td></tr>\n" ++
    "<tr><th>Account location journey</th><td>" ++ escape l.journey ++ " · " ++
    esc host distance ++ " km in " ++ esc host elapsed ++ " minutes</td></tr>\n" ++
    "<tr><th>Device / recipient</th><td>" ++ familiarity newDevice "device" ++ " / " ++
    familiarity newBeneficiary "recipient" ++ "</td></tr>\n" ++
    "<tr><th>Synthetic watchlist</th><td>" ++ escape l.screen ++ "</td></tr>\n" ++
    "<tr><th>Security correlation</th><td>" ++
    (if fused.truthy then "Matched Go login warning to this account"
      else "No matched login warning") ++ "</td></tr>\n" ++
    "<tr><th>Current audit verification</th><td>" ++ escape l.integrity ++ " · checked " ++
    esc host (Dict.get verification "checked_at" (.str "Not available")) ++
    "</td></tr></table>\n" ++
    "<p>" ++ esc host note ++ "</p>\n"

def narrative (l : Locals) : Except Raised String := do
  let text ← ((← l.result.get "compliance").or (.dict [])).get "narrative"
    (.str ("No compliance draft was requested. " ++
      "See the payment decision for the current outcome."))
  return "<p>" ++ esc host text ++ "</p>\n"

def block (title : String) (value : Value) : String :=
  "<section><h2>" ++ escape title ++ "</h2><pre>" ++ escape (dumps host 0 value) ++
    "</pre></section>"

/-- `[e["detail"] for e in events if e.get("detail", {}).get("tool")]`. -/
def toolEvidence (events : Value) : Except Raised (List Value) := do
  let items ← events.iter
  items.filterMapM fun e => do
    let tool ← (← e.get "detail" (.dict [])).get "tool"
    if tool.truthy then return some (← e.getItem "detail") else return none

def evidence (l : Locals) : Except Raised String := do
  let rules ← l.result.get "rules"
  let prefilter ← l.result.get "prefilter"
  let triage ← l.result.get "triage"
  let case ← l.result.get "case"
  let compliance ← l.result.get "compliance"
  let securityEvent ← (← l.decision.get "detail" (.dict [])).get "security_event"
  let research ← toolEvidence (← l.result.get "events" (.list []))
  return block host "Transaction and location data"
      (.dict [("transaction", l.tx), ("review", l.review)]) ++ "\n" ++
    block host "Rules and statistical check"
      (.dict [("rules", rules), ("prefilter", prefilter)]) ++ "\n" ++
    block host "Investigation and compliance draft"
      (.dict [("triage", triage), ("case", case), ("compliance", compliance),
        ("security_event", securityEvent)]) ++ "\n" ++
    block host "Research tool evidence" (.list research) ++ "\n"

def closing (l : Locals) (verification : Dict) : Except Raised String := do
  let errors ← l.audit.get "errors" (.list [])
  return block host "Current chain verification" (.dict verification) ++ "\n" ++
    block host "Audit errors" errors ++ "\n" ++
    "<p>Use your browser’s Print command to save this report as a PDF.</p></html>"

def renderReport (record verification : Dict) : Except Raised String := do
  let l ← Locals.read host record verification
  return (← opening host l) ++ (← outcome host l) ++
    block host "Payment policy and simulation receipt" l.payment ++ "\n" ++
    (← details host l verification) ++
    "<h2>Reasons for review</h2><ul>" ++
    (if l.findings = "" then "<li>No deterministic rules triggered.</li>" else l.findings) ++
    "</ul>\n" ++ (← narrative host l) ++
    "<h2>Processing timeline</h2><table><tr><th>Time (UTC)</th><th>Stage</th>" ++
    "<th>What happened</th></tr>" ++ l.rows ++ "</table>\n" ++ (← evidence host l) ++
    "<h2>Audit receipts</h2><p>Each receipt links to the previous record through a SHA-256 " ++
    "hash. The local file-backed chain is tamper-evident; it is not independently signed or " ++
    "externally anchored.</p><table><tr><th>Sequence</th><th>Event</th><th>Hash</th></tr>" ++
    l.receipts ++ "</table>\n" ++ (← closing host l verification)

/-! ## The texts of the page

What the page shows of the record between its markup, in the page's order and before any
of it is escaped. -/

def eventTexts (e : Value) : Except Raised (List String) := do
  let timestamp ← e.getItem "timestamp"
  let stage ← e.get "stage" (.str "alert")
  let label ← e.get "label" (← e.get "title" (.str ""))
  return [host.str timestamp, host.str stage, host.str label]

def receiptTexts (e : Value) : Except Raised (List String) := do
  let seq ← e.getItem "seq"
  let eventType ← e.getItem "event_type"
  let hash ← e.getItem "hash"
  return [host.str seq, host.str eventType, host.str hash]

def findingTexts (rule : Value) : Except Raised (List String) := do
  let name ← replace (← rule.getItem "rule") '_' ' '
  let detail ← rule.getItem "detail"
  return [name, host.str detail]

def rowTexts (texts : Value → Except Raised (List String)) (v : Value) :
    Except Raised (List String) := do
  let items ← v.iter
  let rows ← items.mapM texts
  return rows.flatten

def openingTexts (l : Locals) : Except Raised (List String) := do
  let account ← l.tx.get "account_id" (.str "")
  let mode ← l.result.get "model_mode" (.str "unknown")
  return [host.str l.transactionId, host.str l.transactionId, host.str account, host.str mode]

def outcomeTexts (l : Locals) : Except Raised (List String) := do
  let amount ← l.tx.get "amount" (.str "")
  let currency ← l.tx.get "currency" (.str "")
  let title ← l.decision.getItem "title"
  let severity ← l.decision.getItem "severity"
  let status ← l.audit.get "status" (.str "not recorded")
  let action ← l.payment.getItem "action"
  let reasons ← join " " (← l.payment.getItem "reasons")
  let execution ← l.payment.get "execution_status" (.str "not recorded")
  return [host.str amount, host.str currency, host.str title, host.str severity,
    host.str status, host.str l.summary, host.str action, reasons, host.str execution]

def detailsTexts (l : Locals) (verification : Dict) : Except Raised (List String) := do
  let recipient ← l.tx.get "beneficiary_name"
    (← l.tx.get "beneficiary_id" (.str "Not recorded"))
  let distance ← l.review.get "distance_km" (.str "Not recorded")
  let elapsed ← l.review.get "elapsed_minutes" (.str "Not recorded")
  let newDevice ← l.review.get "new_device"
  let newBeneficiary ← l.review.get "new_beneficiary"
  let fused ← l.decision.get "fused_with_security_event"
  let note ← l.review.get "location_note" (.str "Location evidence was not recorded.")
  return [host.str recipient, l.journey, host.str distance, host.str elapsed,
    familiarity newDevice "device", familiarity newBeneficiary "recipient", l.screen,
    if fused.truthy then "Matched Go login warning to this account"
      else "No matched login warning",
    l.integrity, host.str (Dict.get verification "checked_at" (.str "Not available")),
    host.str note]

def narrativeTexts (l : Locals) : Except Raised (List String) := do
  let text ← ((← l.result.get "compliance").or (.dict [])).get "narrative"
    (.str ("No compliance draft was requested. " ++
      "See the payment decision for the current outcome."))
  return [host.str text]

def blockTexts (title : String) (value : Value) : List String :=
  [title, dumps host 0 value]

def evidenceTexts (l : Locals) : Except Raised (List String) := do
  let rules ← l.result.get "rules"
  let prefilter ← l.result.get "prefilter"
  let triage ← l.result.get "triage"
  let case ← l.result.get "case"
  let compliance ← l.result.get "compliance"
  let securityEvent ← (← l.decision.get "detail" (.dict [])).get "security_event"
  let research ← toolEvidence (← l.result.get "events" (.list []))
  return blockTexts host "Transaction and location data"
      (.dict [("transaction", l.tx), ("review", l.review)]) ++
    blockTexts host "Rules and statistical check"
      (.dict [("rules", rules), ("prefilter", prefilter)]) ++
    blockTexts host "Investigation and compliance draft"
      (.dict [("triage", triage), ("case", case), ("compliance", compliance),
        ("security_event", securityEvent)]) ++
    blockTexts host "Research tool evidence" (.list research)

def closingTexts (l : Locals) (verification : Dict) : Except Raised (List String) := do
  let errors ← l.audit.get "errors" (.list [])
  return blockTexts host "Current chain verification" (.dict verification) ++
    blockTexts host "Audit errors" errors

def reportTexts (record verification : Dict) : Except Raised (List String) := do
  let l ← Locals.read host record verification
  let events ← rowTexts (eventTexts host) (← l.result.get "events" (.list []))
  let receipts ← rowTexts (receiptTexts host) (← l.audit.get "entries" (.list []))
  let findings ← rowTexts (findingTexts host)
    (← ((← l.result.get "rules").or (.dict [])).get "triggered_rules" (.list []))
  return (← openingTexts host l) ++ (← outcomeTexts host l) ++
    blockTexts host "Payment policy and simulation receipt" l.payment ++
    (← detailsTexts host l verification) ++ findings ++ (← narrativeTexts host l) ++ events ++
    (← evidenceTexts host l) ++ receipts ++ (← closingTexts host l verification)

end

/-! ## The template -/

section
variable {host : Host}

theorem eventRow_renders : ∃ template, ∀ e,
    Renders template (eventRow host e) (eventTexts host e) := by
  apply Exists.intro
  intro e
  apply Renders.read; intro timestamp
  apply Renders.read; intro stage
  apply Renders.read; intro title
  apply Renders.read; intro label
  apply Renders.pure
  -- the template and the texts are read off the page, piece by piece
  · repeat' with_reducible first
      | apply Fills.append
      | apply Fills.escaped
      | exact .literal (.ofList (by simp [step]) (by simp))
  · simp only [List.nil_append, List.append_nil, List.cons_append]

theorem receiptRow_renders : ∃ template, ∀ e,
    Renders template (receiptRow host e) (receiptTexts host e) := by
  apply Exists.intro
  intro e
  apply Renders.read; intro seq
  apply Renders.read; intro eventType
  apply Renders.read; intro hash
  apply Renders.pure
  · repeat' with_reducible first
      | apply Fills.append
      | apply Fills.escaped
      | exact .literal (.ofList (by simp [step]) (by simp))
  · simp only [List.nil_append, List.append_nil, List.cons_append]

theorem finding_renders : ∃ template : List Piece, template.flatMap Piece.tags ≠ [] ∧
    ∀ rule, Renders template (finding host rule) (findingTexts host rule) := by
  refine ⟨[.markup "<li><strong>"] ++ [.text] ++ [.markup "</strong>: "] ++ [.text] ++
    [.markup "</li>"], ?_, fun rule => ?_⟩
  · have opens : tags "<li><strong>" ≠ [] := by simp [tags, tagsFrom, step, ended]
    simp [Piece.tags, opens]
  · apply Renders.read; intro own
    apply Renders.read; intro name
    apply Renders.read; intro detail
    apply Renders.pure
    · repeat' with_reducible first
        | apply Fills.append
        | apply Fills.escaped
        | exact .literal (.ofList (by simp [step]) (by simp))
    · simp only [List.nil_append, List.append_nil, List.cons_append]

theorem opening_renders : ∃ template, ∀ l,
    Renders template (opening host l) (openingTexts host l) := by
  apply Exists.intro
  intro l
  apply Renders.read; intro account
  apply Renders.read; intro mode
  apply Renders.pure
  · repeat' with_reducible first
      | apply Fills.append
      | apply Fills.escaped
      | exact .literal (.ofList (by simp [step]) (by simp))
  · simp only [List.nil_append, List.append_nil, List.cons_append]

theorem outcome_renders : ∃ template, ∀ l,
    Renders template (outcome host l) (outcomeTexts host l) := by
  apply Exists.intro
  intro l
  apply Renders.read; intro amount
  apply Renders.read; intro currency
  apply Renders.read; intro title
  apply Renders.read; intro severity
  apply Renders.read; intro status
  apply Renders.read; intro action
  apply Renders.read; intro listed
  apply Renders.read; intro reasons
  apply Renders.read; intro execution
  apply Renders.pure
  · repeat' with_reducible first
      | apply Fills.append
      | apply Fills.escaped
      | exact .literal (.ofList (by simp [step]) (by simp))
  · simp only [List.nil_append, List.append_nil, List.cons_append]

theorem familiarity_fills {subject : String}
    (named : subject = "device" ∨ subject = "recipient") (value : Value) :
    Fills [.text] [familiarity value subject] (familiarity value subject) := by
  rcases named with rfl | rfl <;> unfold familiarity <;> split
  all_goals exact .plain (by simp [escapeChar, capitalize])

theorem fused_fills (fused : Bool) :
    Fills [.text] [if fused then "Matched Go login warning to this account"
      else "No matched login warning"] (if fused then "Matched Go login warning to this account"
      else "No matched login warning") := by
  cases fused with
  | true => exact .plain (by simp [escapeChar])
  | false => exact .plain (by simp [escapeChar])

theorem details_renders : ∃ template, ∀ l verification,
    Renders template (details host l verification) (detailsTexts host l verification) := by
  apply Exists.intro
  intro l verification
  apply Renders.read; intro other
  apply Renders.read; intro recipient
  apply Renders.read; intro distance
  apply Renders.read; intro elapsed
  apply Renders.read; intro newDevice
  apply Renders.read; intro newBeneficiary
  apply Renders.read; intro fused
  apply Renders.read; intro note
  apply Renders.pure
  · repeat' with_reducible first
      | apply Fills.append
      | apply Fills.escaped
      | exact familiarity_fills (.inl rfl) _
      | exact familiarity_fills (.inr rfl) _
      | apply fused_fills
      | exact .literal (.ofList (by simp [step]) (by simp))
  · simp only [List.nil_append, List.append_nil, List.cons_append]

theorem narrative_renders : ∃ template, ∀ l,
    Renders template (narrative host l) (narrativeTexts host l) := by
  apply Exists.intro
  intro l
  apply Renders.read; intro compliance
  apply Renders.read; intro text
  apply Renders.pure
  · repeat' with_reducible first
      | apply Fills.append
      | apply Fills.escaped
      | exact .literal (.ofList (by simp [step]) (by simp))
  · simp only [List.nil_append, List.append_nil]

theorem block_fills : ∃ template, ∀ title value,
    Fills template (blockTexts host title value) (block host title value) := by
  apply Exists.intro
  intro title value
  apply Fills.of_eq
  · unfold block
    repeat' with_reducible first
      | apply Fills.append
      | apply Fills.escaped
      | exact .literal (.ofList (by simp [step]) (by simp))
  · simp only [blockTexts, List.nil_append, List.append_nil, List.cons_append]

theorem evidence_renders : ∃ template, ∀ l,
    Renders template (evidence host l) (evidenceTexts host l) := by
  obtain ⟨piece, fills⟩ := @block_fills host
  apply Exists.intro
  intro l
  apply Renders.read; intro rules
  apply Renders.read; intro prefilter
  apply Renders.read; intro triage
  apply Renders.read; intro case
  apply Renders.read; intro compliance
  apply Renders.read; intro detail
  apply Renders.read; intro securityEvent
  apply Renders.read; intro events
  apply Renders.read; intro research
  apply Renders.pure
  · repeat' with_reducible first
      | apply Fills.append
      | apply fills
      | exact .literal (.ofList (by simp [step]) (by simp))
  · simp only [List.append_nil]

theorem closing_renders : ∃ template, ∀ l verification,
    Renders template (closing host l verification) (closingTexts host l verification) := by
  obtain ⟨piece, fills⟩ := @block_fills host
  apply Exists.intro
  intro l verification
  apply Renders.read; intro errors
  apply Renders.pure
  · repeat' with_reducible first
      | apply Fills.append
      | apply fills
      | exact .literal (.ofList (by simp [step]) (by simp))
  · simp only [List.append_nil]

/-! ## What the template depends on -/

/-- How many rows a value has. A text or a dict has none that renders. -/
def size : Value → Nat
  | .list items => items.length
  | _ => 0

/-- A text yields its characters, and a dict its keys. -/
theorem iter_items {v : Value} {items : List Value} (iterated : v.iter = .ok items) :
    v = .list items ∨ size v = 0 ∧ ∀ item ∈ items, ∃ s, item = .str s := by
  cases v with
  | list xs =>
    cases iterated
    exact .inl rfl
  | dict fields =>
    cases iterated
    refine .inr ⟨rfl, fun item mem => ?_⟩
    obtain ⟨field, _, rfl⟩ := List.mem_map.mp mem
    exact ⟨_, rfl⟩
  | str s =>
    cases iterated
    refine .inr ⟨rfl, fun item mem => ?_⟩
    obtain ⟨c, _, rfl⟩ := List.mem_map.mp mem
    exact ⟨_, rfl⟩
  | none => cases iterated
  | bool b => cases iterated
  | int n => cases iterated
  | float x => cases iterated

theorem rowsOf_renders {row : Value → Except Raised String}
    {shown : Value → Except Raised (List String)} {template : List Piece}
    (renders : ∀ item, Renders template (row item) (shown item))
    (noText : ∀ s, ∃ e, row (.str s) = .error e) (v : Value) :
    Renders (List.replicate (size v) template).flatten (rowsOf row v) (rowTexts shown v) := by
  refine Ensures.bind fun items iterated => .bind fun rows returned => .pure ?_
  unfold rowTexts
  rw [iterated]
  rcases iter_items iterated with rfl | ⟨none, texts⟩
  · obtain ⟨texts, found, fills⟩ := mapM_renders renders items rows returned
    refine ⟨texts.flatten, ?_, fills⟩
    simp only [bind, Except.bind, found]
    rfl
  · rw [none]
    cases items with
    | nil =>
      cases returned
      exact ⟨[], rfl, .nil⟩
    | cons item items =>
      -- no row renders a text
      obtain ⟨s, rfl⟩ := texts item List.mem_cons_self
      obtain ⟨e, raised⟩ := noText s
      rw [List.mapM_cons, raised] at returned
      cases returned

/-- The numbers of the events, receipts and triggered rules of a record. -/
def counts (record : Dict) : Except Raised (Nat × Nat × Nat) := do
  let result ← Dict.getItem record "result"
  let audit ← result.get "audit" (.dict [])
  let events ← result.get "events" (.list [])
  let entries ← audit.get "entries" (.list [])
  let rules ← ((← result.get "rules").or (.dict [])).get "triggered_rules" (.list [])
  return (size events, size entries, size rules)

/-- Where the parts that vary in length come from. -/
structure Rows (host : Host) (record : Dict) (l : Locals)
    (occurred written verdict triggered : Value) : Prop where
  counted : counts record = .ok (size occurred, size written, size triggered)
  events : l.result.get "events" (.list []) = .ok occurred
  entries : l.audit.get "entries" (.list []) = .ok written
  ruled : l.result.get "rules" = .ok verdict
  rules : (verdict.or (.dict [])).get "triggered_rules" (.list []) = .ok triggered
  rows : rowsOf (eventRow host) occurred = .ok l.rows
  receipts : rowsOf (receiptRow host) written = .ok l.receipts
  findings : rowsOf (finding host) triggered = .ok l.findings

theorem read_rows (record verification : Dict) :
    Ensures (Locals.read host record verification) fun l =>
      ∃ occurred written verdict triggered,
        Rows host record l occurred written verdict triggered := by
  refine .bind fun result found => .any fun tx => .any fun review => .bind fun audit audited => ?_
  refine .any fun payment => .bind fun occurred h₁ => .bind fun rows timeline => ?_
  refine .bind fun entries h₂ => .bind fun written chain => .any fun alert => ?_
  refine .any fun origin => .any fun _ => .any fun location => .any fun _ => ?_
  refine .bind fun verdict h₃ => .bind fun triggered h₄ => .bind fun findings reasons => ?_
  refine .any fun case => .any fun screen => .any fun summary => .any fun integrity => ?_
  refine .any fun transactionId => .pure ⟨occurred, entries, verdict, triggered, ?_⟩
  refine ⟨?_, h₁, h₂, h₃, h₄, timeline, chain, reasons⟩
  unfold counts
  simp only [found, audited, h₁, h₂, h₃, h₄, bind, Except.bind]
  rfl

theorem reasons_fill {rules : List Piece} (tagged : rules.flatMap Piece.tags ≠ []) {n : Nat}
    {texts : List String} {findings : String}
    (fills : Fills (List.replicate n rules).flatten texts findings) :
    Fills (if n = 0 then [.markup "<li>No deterministic rules triggered.</li>"]
        else (List.replicate n rules).flatten) texts
      (if findings = "" then "<li>No deterministic rules triggered.</li>" else findings) := by
  cases n with
  | zero =>
    cases fills
    exact .literal (.ofList (by simp [step]) (by simp))
  | succ n =>
    have some : findings ≠ "" := by
      rintro rfl
      have none := fills.tags
      rw [tags_empty, List.replicate_succ, List.flatten_cons, List.flatMap_append] at none
      exact tagged (List.append_eq_nil_iff.mp none.symm).1
    rw [if_neg some, if_neg (Nat.succ_ne_zero n)]
    exact fills

theorem renderReport_renders : ∃ template : Nat × Nat × Nat → List Piece,
    ∀ record verification, Ensures (renderReport host record verification) fun page =>
      ∃ n texts, counts record = .ok n ∧ reportTexts host record verification = .ok texts ∧
        Fills (template n) texts page := by
  obtain ⟨event, event_renders⟩ := @eventRow_renders host
  obtain ⟨receipt, receipt_renders⟩ := @receiptRow_renders host
  obtain ⟨rule, tagged, rule_renders⟩ := @finding_renders host
  obtain ⟨_, opening⟩ := @opening_renders host
  obtain ⟨_, outcome⟩ := @outcome_renders host
  obtain ⟨_, block⟩ := @block_fills host
  obtain ⟨_, details⟩ := @details_renders host
  obtain ⟨_, narrative⟩ := @narrative_renders host
  obtain ⟨_, evidence⟩ := @evidence_renders host
  obtain ⟨_, closing⟩ := @closing_renders host
  apply Exists.intro
  intro record verification
  refine .bind fun l read => ?_
  obtain ⟨occurred, written, verdict, triggered, r⟩ := read_rows record verification l read
  refine .bind fun page₁ opened => .bind fun page₂ decided => .bind fun page₃ detailed => ?_
  refine .bind fun page₄ told => .bind fun page₅ proved => .bind fun page₆ closed => ?_
  obtain ⟨texts₁, found₁, first⟩ := opening l page₁ opened
  obtain ⟨texts₂, found₂, second⟩ := outcome l page₂ decided
  obtain ⟨texts₃, found₃, third⟩ := details l verification page₃ detailed
  obtain ⟨texts₄, found₄, fourth⟩ := narrative l page₄ told
  obtain ⟨texts₅, found₅, fifth⟩ := evidence l page₅ proved
  obtain ⟨texts₆, found₆, sixth⟩ := closing l verification page₆ closed
  obtain ⟨texts₇, found₇, timeline⟩ :=
    rowsOf_renders event_renders (fun _ => ⟨_, rfl⟩) occurred l.rows r.rows
  obtain ⟨texts₈, found₈, chain⟩ :=
    rowsOf_renders receipt_renders (fun _ => ⟨_, rfl⟩) written l.receipts r.receipts
  obtain ⟨texts₉, found₉, ruled⟩ :=
    rowsOf_renders rule_renders (fun _ => ⟨_, rfl⟩) triggered l.findings r.findings
  have reasons := reasons_fill tagged ruled
  have shown : reportTexts host record verification = .ok (texts₁ ++ texts₂ ++
      blockTexts host "Payment policy and simulation receipt" l.payment ++ texts₃ ++ texts₉ ++
      texts₄ ++ texts₇ ++ texts₅ ++ texts₈ ++ texts₆) := by
    unfold reportTexts
    simp only [read, r.events, r.entries, r.ruled, r.rules, found₁, found₂, found₃, found₄,
      found₅, found₆, found₇, found₈, found₉, bind, Except.bind]
    rfl
  have counted := r.counted
  generalize shape : (size occurred, size written, size triggered) = n at counted
  rw [show size occurred = n.1 from congrArg Prod.fst shape] at timeline
  rw [show size written = n.2.1 from congrArg (·.2.1) shape] at chain
  rw [show size triggered = n.2.2 from congrArg (·.2.2) shape] at reasons
  refine .pure ⟨n, _, counted, shown, ?_⟩
  apply Fills.of_eq
  · repeat' with_reducible first
      | assumption
      | apply Fills.append
      | apply block
      | exact .literal (.ofList (by simp [step]) (by simp))
  · simp only [List.append_nil]

end

/-! ## Records of one shape -/

/-- The same but for the texts of its strings. -/
inductive Alike : Value → Value → Prop
  | none : Alike .none .none
  | bool (b : Bool) : Alike (.bool b) (.bool b)
  | int (n : Int) : Alike (.int n) (.int n)
  | float (x : ℚ) : Alike (.float x) (.float x)
  | str (s t : String) : Alike (.str s) (.str t)
  | list {xs ys : List Value} (items : List.Forall₂ Alike xs ys) : Alike (.list xs) (.list ys)
  | dict {d d' : Dict} (keys : d.map Prod.fst = d'.map Prod.fst)
      (values : List.Forall₂ Alike (d.map Prod.snd) (d'.map Prod.snd)) : Alike (.dict d) (.dict d')

namespace Alike

theorem empty : Alike (.dict []) (.dict []) := .dict rfl .nil

theorem lookup {d d' : Dict} (keys : d.map Prod.fst = d'.map Prod.fst)
    (values : List.Forall₂ Alike (d.map Prod.snd) (d'.map Prod.snd)) (key : String) :
    (d.lookup key = Option.none ∧ d'.lookup key = Option.none) ∨
      ∃ w w', d.lookup key = some w ∧ d'.lookup key = some w' ∧ Alike w w' := by
  induction d generalizing d' with
  | nil =>
    cases d' with
    | nil => exact .inl ⟨rfl, rfl⟩
    | cons field' d' => cases keys
  | cons field d ih =>
    cases d' with
    | nil => cases keys
    | cons field' d' =>
      obtain ⟨name, value⟩ := field
      obtain ⟨name', value'⟩ := field'
      obtain ⟨rfl, later⟩ := List.cons.inj keys
      cases values with
      | cons own rest =>
        simp only [List.lookup_cons]
        split
        · exact .inr ⟨value, value', rfl, rfl, own⟩
        · exact ih later rest

variable {v v' w w' default : Value} {key : String}

theorem item {d d' : Dict} (alike : Alike (.dict d) (.dict d')) (found : d.getItem key = .ok w)
    (found' : d'.getItem key = .ok w') : Alike w w' := by
  cases alike with
  | dict keys values =>
    unfold Dict.getItem at found found'
    rcases lookup keys values key with ⟨none, none'⟩ | ⟨_, _, some, some', own⟩
    · rw [none] at found
      cases found
    · rw [some] at found
      rw [some'] at found'
      cases found
      cases found'
      exact own

theorem get (alike : Alike v v') (defaults : Alike default default)
    (found : v.get key default = .ok w) (found' : v'.get key default = .ok w') : Alike w w' := by
  cases alike with
  | dict keys values =>
    cases found
    cases found'
    unfold Dict.get
    rcases lookup keys values key with ⟨none, none'⟩ | ⟨_, _, some, some', own⟩
    · rw [none, none']
      exact defaults
    · rw [some, some']
      exact own
  | _ => cases found

/-- What is read of a value that is no dict, of which only an empty one can be read. -/
theorem get_or (other : ∀ d, v ≠ .dict d) (found : (v.or (.dict [])).get key default = .ok w) :
    w = default := by
  unfold Value.or at found
  split at found
  · cases v with
    | dict d => exact absurd rfl (other d)
    | _ => cases found
  · cases found
    rfl

/-- A text may be empty in one of two records, and is not read in the other. -/
theorem orGet (alike : Alike v v') (defaults : Alike default default)
    (found : (v.or (.dict [])).get key default = .ok w)
    (found' : (v'.or (.dict [])).get key default = .ok w') : Alike w w' := by
  have own : ∀ d : Dict, (Value.dict d).or (.dict []) = .dict d := by
    intro d
    cases d <;> rfl
  cases alike with
  | dict keys values =>
    rw [own] at found found'
    exact get (.dict keys values) defaults found found'
  | _ =>
    rw [get_or (by simp) found, get_or (by simp) found']
    exact defaults

theorem size (alike : Alike v v') : Reports.size v = Reports.size v' := by
  cases alike with
  | list items => exact items.length_eq
  | _ => rfl

end Alike

theorem counts_alike {record record' : Dict} (alike : Alike (.dict record) (.dict record')) :
    Ensures (counts record) fun n => Ensures (counts record') fun n' => n = n' := by
  have nothing : Alike (.list []) (.list []) := .list .nil
  refine .bind fun result found => .bind fun audit audited => .bind fun events h₁ => ?_
  refine .bind fun entries h₂ => .bind fun verdict h₃ => .bind fun rules h₄ => .pure ?_
  refine .bind fun result' found' => .bind fun audit' audited' => .bind fun events' h₁' => ?_
  refine .bind fun entries' h₂' => .bind fun verdict' h₃' => .bind fun rules' h₄' => .pure ?_
  have results : Alike result result' := alike.item found found'
  have audits := results.get .empty audited audited'
  have verdicts := results.get .none h₃ h₃'
  rw [(results.get nothing h₁ h₁').size, (audits.get nothing h₂ h₂').size,
    (verdicts.orGet nothing h₄ h₄').size]

/-- **The markup of a report does not depend on the texts of its record**: the pages of
records of one shape fill one template with the texts of their record, each escaped. -/
theorem report_markup (host : Host) {record verification : Dict} {page : String}
    (returned : renderReport host record verification = .ok page) :
    ∃ template texts, reportTexts host record verification = .ok texts ∧
      Fills template texts page ∧ Referring page.toList ∧
      ∀ (record' verification' : Dict) (page' : String),
        Alike (.dict record) (.dict record') →
        renderReport host record' verification' = .ok page' →
        ∃ texts', reportTexts host record' verification' = .ok texts' ∧
          Fills template texts' page' ∧ tags page' = tags page ∧ bare page' = bare page := by
  obtain ⟨template, renders⟩ := @renderReport_renders host
  obtain ⟨n, texts, counted, shown, filled⟩ := renders record verification page returned
  refine ⟨template n, texts, shown, filled, filled.referring, ?_⟩
  intro record' verification' page' alike returned'
  obtain ⟨n', texts', counted', shown', filled'⟩ := renders _ _ _ returned'
  rw [← counts_alike alike n counted n' counted'] at filled'
  exact ⟨texts', shown', filled', by rw [filled'.tags, filled.tags],
    by rw [filled'.bare, filled.bare]⟩

/-- A record with the given texts in its strings. -/
def sampleRecord (id account rule : String) : Dict :=
  [("transaction_id", .str id),
    ("result", .dict [
      ("transaction", .dict [("account_id", .str account)]),
      ("rules", .dict [("triggered_rules", .list [
        .dict [("rule", .str rule), ("detail", .str rule)]])]),
      ("events", .list [.dict [("timestamp", .str "2026-01-01T00:00:00Z"), ("stage", .str rule)]]),
      ("audit", .dict [("entries", .list []), ("errors", .list [])])])]

def sampleVerification : Dict := [("verify", .dict [("valid", .bool true)])]

theorem sampleRecord_alike (id account rule id' account' rule' : String) :
    Alike (.dict (sampleRecord id account rule)) (.dict (sampleRecord id' account' rule')) := by
  repeat constructor

theorem sampleRecord_renders (id account rule : String) :
    ∃ page, renderReport sampleHost (sampleRecord id account rule) sampleVerification = .ok page :=
  ⟨_, rfl⟩

/-- The page shows the texts of the record, and their tags are none of its. -/
theorem report_markup_script :
    ∃ (page page' : String) (texts' : List String),
      renderReport sampleHost (sampleRecord "tx_1" "acct_1" "new_device") sampleVerification =
        .ok page ∧
      renderReport sampleHost (sampleRecord "<script>alert(1)</script>"
        "<img src=x onerror=alert(1)>" "\"><b>&lt;") sampleVerification = .ok page' ∧
      reportTexts sampleHost (sampleRecord "<script>alert(1)</script>"
        "<img src=x onerror=alert(1)>" "\"><b>&lt;") sampleVerification = .ok texts' ∧
      "<script>alert(1)</script>" ∈ texts' ∧ "\"><b>&lt;" ∈ texts' ∧
      Referring page.toList ∧ tags page' = tags page ∧ bare page' = bare page := by
  obtain ⟨page, returned⟩ := sampleRecord_renders "tx_1" "acct_1" "new_device"
  obtain ⟨page', returned'⟩ := sampleRecord_renders "<script>alert(1)</script>"
    "<img src=x onerror=alert(1)>" "\"><b>&lt;"
  obtain ⟨_, _, _, _, referring, same⟩ := report_markup sampleHost returned
  obtain ⟨texts', shown, _, markup⟩ := same _ _ page' (sampleRecord_alike _ _ _ _ _ _) returned'
  have texts : (reportTexts sampleHost (sampleRecord "<script>alert(1)</script>"
      "<img src=x onerror=alert(1)>" "\"><b>&lt;") sampleVerification).toOption.any
        (fun texts => texts.contains "<script>alert(1)</script>" &&
          texts.contains "\"><b>&lt;") = true := by
    decide +kernel
  rw [shown] at texts
  obtain ⟨script, rule⟩ := (Bool.and_eq_true _ _).mp texts
  exact ⟨page, page', texts', returned, returned', shown, List.contains_iff_mem.mp script,
    List.contains_iff_mem.mp rule, referring, markup⟩

end VaultWatch.Agents.Reports
