import EspLtePpp.Commands.Reply

/-! # Answers of the modem

An answer is a list of lines ended by a result line, each line closed by CR LF. Echoed
text counts as lines of the answer. What a reply callback captures from a quiet line
is the beginning of such a line.
-/

namespace EspLtePpp

open Segments Reply

/-- A line of text, without its end. -/
structure AtLine where
  body : Bytes
  lf_not_mem : LF ∉ body
  deriving DecidableEq

namespace AtLine

def token (l : AtLine) : Bytes := l.body ++ [CR]

theorem lf_not_mem_token (l : AtLine) : LF ∉ l.token := by
  rw [token, List.mem_append, List.mem_singleton]
  rintro (h | h)
  · exact l.lf_not_mem h
  · exact absurd h (by decide)

def of (s : String) : AtLine := ⟨(ascii s).filter (· ≠ LF), by simp⟩

theorem body_of_ok : (AtLine.of "OK").body = ascii "OK" := by decide

end AtLine

/-- What the modem answers to one command. -/
structure Answer where
  lines : List AtLine
  result : AtLine
  result_eq : result.body = ascii "OK" ∨ ascii "ERROR" <:+: result.body

namespace Answer

variable {a b : Answer} {ts : List Bytes} {s : Bytes}

def allLines (a : Answer) : List AtLine := a.lines ++ [a.result]

/-- The bytes sent. -/
def render (a : Answer) : Bytes := a.allLines.flatMap fun l => l.token ++ [LF]

def tokens (a : Answer) : List Bytes := a.allLines.map AtLine.token

def closed (lines : List AtLine) : Answer := ⟨lines, .of "OK", Or.inl AtLine.body_of_ok⟩

def ok (lines : List String) : Answer := .closed (lines.map .of)

/-- The whole answer arrives and is read before the command times out. -/
def prompt (a : Answer) : Turn := ⟨[], [], [.arrive a.render.length, .task], a.render⟩

def late (a : Answer) : Turn := ⟨[], [], [], a.render⟩

def promptAnswers : ℕ → Answer
  | 0 => .ok ["+CPIN: READY"]
  | 1 => .ok ["A7677S"]
  | 2 => .ok ["867000000000000"]
  | 3 => .ok ["+CREG: 0,1"]
  | 4 => .ok ["+COPS: 0,0,\"VIETTEL\",7"]
  | 5 => .ok ["+CPSI: LTE,Online"]
  | 6 => .ok ["+CSQ: 20,99"]
  | _ => .ok []

theorem segments_render (a : Answer) : segments LF a.render = a.tokens := by
  have h : a.render = a.tokens.flatMap (· ++ [LF]) := by
    simp only [render, tokens, List.flatMap_map]
  rw [h]
  apply segments_flatMap
  intro s hs
  obtain ⟨l, -, rfl⟩ := List.mem_map.mp hs
  exact l.lf_not_mem_token

section Single

variable {l : AtLine}

theorem tokens_single (l : AtLine) :
    (closed [l]).tokens = [l.token, (AtLine.of "OK").token] := rfl

theorem lastLong_single_of_final (h : Final l.token) : lastLong (closed [l]).tokens = none := by
  rw [tokens_single]
  simp [lastLong, heading, h]

theorem verdict_single (h : ¬ Final l.token) : verdict (closed [l]).tokens = .ok := by
  have hnone : verdict [l.token] = .timeout := by
    rw [verdict_eq_timeout]
    simpa using h
  rw [tokens_single, ← List.singleton_append, verdict_append hnone]
  decide

theorem lastLong_single (hc : CR ∉ l.body) (hl : 2 < l.body.length) (h : ¬ Final l.token) :
    lastLong (closed [l]).tokens = some l.body := by
  have hne : l.body ≠ [] := by
    intro he
    simp [he] at hl
  have hstrip : stripToken l.token = l.body := stripToken_append_CR hne hc l.lf_not_mem
  have hok : lastLong [(AtLine.of "OK").token] = none := by decide
  rw [tokens_single, lastLong_cons h, hstrip, if_pos hl, hok, Option.getD_none]

end Single

theorem token_injective : Function.Injective AtLine.token := by
  rintro ⟨l, hl⟩ ⟨m, hm⟩ h
  obtain ⟨rfl, -⟩ := List.append_inj' h rfl
  rfl

/-- The bytes determine the answer. -/
theorem render_injective : Function.Injective render := by
  intro a b h
  have ht : a.tokens = b.tokens := by rw [← segments_render, ← segments_render, h]
  have hl : a.allLines = b.allLines := List.map_injective_iff.mpr token_injective ht
  obtain ⟨hlines, hresult⟩ := List.append_inj' hl rfl
  cases a
  cases b
  simpa using ⟨hlines, List.singleton_inj.mp hresult⟩

end Answer

/--
The text is the line, or the beginning of it that an array of 128 bytes holds; a NUL
or a CR inside the line may end it earlier.
-/
def Truncated (text line : Bytes) : Prop :=
  text <+: line ∧ (0 ∉ line → CR ∉ line → text = line.take 127)

instance (text line : Bytes) : Decidable (Truncated text line) := by
  unfold Truncated; infer_instance

theorem Answer.truncated_of_lastLong {a : Answer} {ts : List Bytes} {s : Bytes}
    (h : lastLong ts = some s) (hts : ts <+: a.tokens) :
    ∃ l ∈ a.allLines, Truncated (strlcpyText s 128) l.body := by
  obtain ⟨hl, t, ht, rfl⟩ := exists_of_lastLong h
  have hh : heading ts <+: ts := List.takeWhile_prefix _
  obtain ⟨l, hmem, rfl⟩ := List.mem_map.mp (hts.subset (hh.subset ht))
  have hne : l.body ≠ [] := by
    intro he
    have hb : l.token.length = 1 := by rw [AtLine.token, he]; rfl
    have := (stripToken_isPrefix l.token).length_le
    omega
  have hp : stripToken l.token <+: l.body := stripToken_append_CR_isPrefix hne
  refine ⟨l, hmem, (strlcpyText_isPrefix _ _).trans hp, ?_⟩
  intro h0 hcr
  have hs : stripToken l.token = l.body := stripToken_append_CR hne hcr l.lf_not_mem
  rw [hs, strlcpyText_of_not_mem h0]

end EspLtePpp
