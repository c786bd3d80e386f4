import Jrtplib4Android.Rtsp.Client

/-!
# Segmentation

`handle` takes every chunk for a whole response. All that counts of the chunks is
therefore which of them start with the line of a `200 OK`, and the keys in those.
Two ways of cutting a stream agree for every client and listener exactly if they agree
in that.
-/

namespace Jrtplib4Android

open CSem

variable {σ : Type}

/-- The keys that a text sets. -/
structure KeyData where
  trackInfo : Option (List Char)
  sessionid : Option (List Char)
  deriving DecidableEq

/-- The track that a line sets. -/
def trackOf (line : List Char) : Option (List Char) :=
  if RTSPClient.trackMark <:+: line then
    some (Text.trim (Text.afterFirst ':' line))
  else none

/-- The session that a line sets. -/
def sessionOf (line : List Char) : Option (List Char) :=
  if RTSPClient.trackMark <:+: line then none
  else if RTSPClient.sessionMark <:+: line then some (Text.trim (Text.afterFirst ':' line))
  else none

/-- The last line that sets a key decides. -/
def keysOf (lines : List (List Char)) : KeyData where
  trackInfo := lines.reverse.findSome? trackOf
  sessionid := lines.reverse.findSome? sessionOf

def keyData (tmp : List Char) : KeyData := keysOf (Text.lines tmp)

/-- The client with the keys of a text in place of its own. -/
def RTSPClient.adopt (c : RTSPClient) (k : KeyData) : RTSPClient :=
  { c with
    trackInfo := k.trackInfo.or c.trackInfo
    sessionid := k.sessionid.or c.sessionid }

/-- A line of a response is adopted by what it names. -/
theorem RTSPClient.obtainLine_eq (c : RTSPClient) (line : List Char) :
    c.obtainLine line = c.adopt ⟨trackOf line, sessionOf line⟩ := by
  by_cases hempty : line = []
  · subst hempty
    rfl
  rw [obtainLine, if_neg hempty, adopt, trackOf, sessionOf]
  by_cases htrack : trackMark <:+: line
  · rw [if_pos htrack, if_pos htrack, if_pos htrack]
    rfl
  rw [if_neg htrack, if_neg htrack, if_neg htrack]
  by_cases hsession : sessionMark <:+: line
  · rw [if_pos hsession, if_pos hsession]
    rfl
  · rw [if_neg hsession, if_neg hsession]
    rfl

/-- `obtainKeyData` sets the keys of the text and keeps the others. -/
theorem RTSPClient.obtainKeyData_eq (c : RTSPClient) (tmp : List Char) :
    c.obtainKeyData tmp = c.adopt (keyData tmp) := by
  rw [obtainKeyData, keyData]
  induction Text.lines tmp generalizing c with
  | nil => rfl
  | cons line lines ih =>
    rw [List.foldl_cons, ih, obtainLine_eq]
    simp only [adopt, keysOf, List.reverse_cons, List.findSome?_append, List.findSome?_singleton,
      Option.or_assoc]

/-- A track that is set is not empty. -/
theorem trackOf_ne_nil {line track : List Char} (h : trackOf line = some track) : track ≠ [] := by
  unfold trackOf at h
  split at h
  · next hinfix =>
    cases h
    obtain ⟨xs, ys, rfl⟩ := hinfix
    have hmark : RTSPClient.trackMark = "a=control".toList ++ ':' :: "trackID".toList := by decide
    rw [hmark, List.append_assoc, List.append_assoc, ← List.append_assoc, List.cons_append]
    have hmem : 't' ∈ "trackID".toList ++ ys := List.mem_append_left _ (by simp)
    exact Text.trim_ne_nil ((Text.suffix_afterFirst ':' _ _).subset hmem) (by decide)
  · cases h

/-- A response never names an empty track. -/
theorem keyData_trackInfo_ne_nil (tmp : List Char) : (keyData tmp).trackInfo ≠ some [] := by
  intro h
  obtain ⟨line, -, hline⟩ := List.exists_of_findSome?_eq_some h
  exact trackOf_ne_nil hline rfl

/-- What one `recieve` returns: not empty, and not more than the buffer. -/
abbrev Chunk := { bytes : List UInt8 // bytes ≠ [] ∧ bytes.length ≤ RTSPClient.bufferSize }

namespace RtspSession

/-- The chunks are read one after another. -/
def reads (decode : List UInt8 → List Char) (l : Listener σ) (s : RtspSession σ)
    (chunks : List Chunk) : RtspSession σ :=
  chunks.foldl (fun s chunk => s.read decode l (some chunk.1)) s

/-- A `200 OK` with the keys `k` is read. -/
def respond (l : Listener σ) (s : RtspSession σ) (k : KeyData) : RtspSession σ :=
  if s.client.connected && !s.cancelled then
    { (s.answered l fun c => c.adopt k).1 with cancelled := (s.answered l fun c => c.adopt k).2 }
  else s

/-- What a response does to a session that is open. -/
theorem respond_eq {l : Listener σ} {s s' : RtspSession σ} {k : KeyData} {thrown : Bool}
    (hconn : s.client.connected = true) (hvalid : s.cancelled = false)
    (h : (s.answered l fun c => c.adopt k) = (s', thrown)) :
    s.respond l k = { s' with cancelled := thrown } := by
  simp only [respond, hconn, hvalid, Bool.not_false, Bool.and_self, ite_true, h]

end RtspSession

/-- The keys of the chunks that start like a `200 OK`. -/
def okKeys (decode : List UInt8 → List Char) (chunks : List Chunk) : List KeyData :=
  ((chunks.map fun chunk => decode chunk.1).filter (RTSPClient.rtspOk <+: ·)).map keyData

namespace RtspSession

/-- A chunk is responded to if it begins with the status line. -/
theorem read_chunk (decode : List UInt8 → List Char) (l : Listener σ) (s : RtspSession σ)
    (chunk : Chunk) :
    s.read decode l (some chunk.1) =
      if RTSPClient.rtspOk <+: decode chunk.1 then s.respond l (keyData (decode chunk.1))
      else s := by
  cases hvalid : s.client.connected && !s.cancelled with
  | false => simp [read, respond, hvalid]
  | true =>
    obtain ⟨hconn, hkey⟩ := Bool.and_eq_true_iff.mp hvalid
    have hrecieve : s.client.recieve (some chunk.1) = (s.client, some chunk.1) := by
      simp only [RTSPClient.recieve, hconn, Bool.not_true, Bool.false_eq_true, ite_false,
        chunk.2.1, ne_eq, not_false_eq_true, ite_true]
    have hobtain : (fun c : RTSPClient => c.obtainKeyData (decode chunk.1)) =
        fun c => c.adopt (keyData (decode chunk.1)) := by
      funext c
      exact c.obtainKeyData_eq _
    simp only [read, hvalid, ite_true, hrecieve, handle]
    split
    · rw [respond, if_pos hvalid, hobtain]
    · rw [Bool.not_eq_true'] at hkey
      rw [← hkey]

/-- All that the chunks come to is their `200 OK`s. -/
theorem reads_eq (decode : List UInt8 → List Char) (l : Listener σ) (s : RtspSession σ)
    (chunks : List Chunk) :
    s.reads decode l chunks = (okKeys decode chunks).foldl (respond l) s := by
  rw [reads]
  induction chunks generalizing s with
  | nil => rfl
  | cons chunk chunks ih =>
    rw [List.foldl_cons, ih, read_chunk, okKeys, okKeys, List.map_cons]
    by_cases hok : RTSPClient.rtspOk <+: decode chunk.1
    · rw [if_pos hok, List.filter_cons_of_pos (by simpa using hok), List.map_cons, List.foldl_cons]
    · rw [if_neg hok, List.filter_cons_of_neg (by simpa using hok)]

/-- What can be told apart of a session. -/
structure Observed where
  sysStatus : RtspStatus
  isSended : Bool
  sessionid : Option (List Char)
  trackInfo : Option (List Char)
  notified : List RtspEvent
  deriving DecidableEq

def observed (s : RtspSession σ) : Observed where
  sysStatus := s.client.sysStatus
  isSended := s.client.isSended
  sessionid := s.client.sessionid
  trackInfo := s.client.trackInfo
  notified := s.notified

end RtspSession

/-- The listener that turns the client's status to DESCRIBE for a single response, by its
counter, and to OPTIONS again. -/
def probe : Listener Nat
  | 0, _ => (0, [])
  | 1, _ => (0, [.method .doOption])
  | 2, _ => (1, [.method .doDescribe])
  | n + 3, _ => (n + 2, [])

/-- An address short enough for the requests that `probe` makes. -/
structure Short (a base : List Char) : Prop where
  cut : Text.beforeLast '/' a = some base
  describe : (Request.describe a 1).size ≤ RTSPClient.bufferSize
  options : ∀ seq, seq = 1 ∨ seq = 2 → (Request.options base seq).size ≤ RTSPClient.bufferSize

/-- There is an address that is short enough. -/
theorem exists_short : ∃ a base, Short a base := by
  refine ⟨"rtsp://a/b".toList, "rtsp://a".toList, by decide, by decide +kernel, ?_⟩
  rintro seq (rfl | rfl) <;> decide +kernel

/-- A session of `probe` on the address `a`. -/
def probed (a : List Char) (n : Nat) (status : RtspStatus) (isSended : Bool) (seq : Int)
    (sessionid trackInfo : Option (List Char)) (written : List Request)
    (notified : List RtspEvent) : RtspSession Nat where
  client :=
    { address := a
      connected := true
      sysStatus := status
      isSended := isSended
      seq := seq
      sessionid := sessionid
      trackInfo := trackInfo
      shutdown := false
      errorTimes := 0
      written := written }
  listener := n
  notified := notified
  cancelled := false

section

variable {a base : List Char} (isSended : Bool) (sessionid trackInfo : Option (List Char))
  (written : List Request) (notified : List RtspEvent) (k : KeyData)

/-- Behind the last count `probe` asks for nothing. -/
theorem respond_past (seq : Int) :
    (probed a 0 .options isSended seq sessionid trackInfo written notified).respond probe k =
      probed a 0 .options false seq sessionid trackInfo written
        (notified ++ [.status .options]) := rfl

/-- A response that is not picked is counted. -/
theorem respond_waiting (n : Nat) :
    (probed a (n + 3) .options isSended 1 sessionid trackInfo written notified).respond probe k =
      probed a (n + 2) .options false 1 sessionid trackInfo written
        (notified ++ [.status .options]) := rfl

/-- The response in front of the one that is picked turns the status to DESCRIBE. -/
theorem respond_before (h : Short a base) :
    (probed a 2 .options isSended 1 sessionid trackInfo written notified).respond probe k =
      probed a 1 .describe true 2 sessionid trackInfo
        (written ++ [.describe a 1]) (notified ++ [.status .options]) := by
  have hnext : toInt (1 + 1) = 2 := toInt_eq (by decide) (by decide)
  have hrun : (probed a 2 .options false 1 sessionid trackInfo written notified).client.run
      .doDescribe = ((probed a 1 .describe true (toInt (1 + 1)) sessionid trackInfo
        (written ++ [.describe a 1]) notified).client, false) := by
    simp only [RTSPClient.run, RTSPClient.doDescribe, probed]
    exact RTSPClient.request_eq .describe rfl rfl not_false h.describe
  rw [hnext] at hrun
  have hnotify := RtspSession.notify_eq (l := probe) (s := probed a 2 .options false 1 sessionid
    trackInfo written notified) rfl hrun
  have hanswered : (probed a 2 .options isSended 1 sessionid trackInfo written
      notified).answered probe (fun c => c.adopt k) = RtspSession.notify probe
        (probed a 2 .options false 1 sessionid trackInfo written notified) := rfl
  exact RtspSession.respond_eq rfl rfl (hanswered.trans hnotify)

/-- The picked response. -/
theorem respond_picked (h : Short a base) {seq : Int} (hseq : seq = 1 ∨ seq = 2)
    (htrack : (k.trackInfo.or trackInfo).getD [] ≠ []) :
    ∃ written', (probed a 1 .describe isSended seq sessionid trackInfo written notified).respond
      probe k = probed a 0 .options true (toInt (seq + 1)) (k.sessionid.or sessionid)
        (k.trackInfo.or trackInfo) written' (notified ++ [.status .describe]) := by
  have hrun : (probed a 1 .describe false seq (k.sessionid.or sessionid)
      (k.trackInfo.or trackInfo) written notified).client.run .doOption =
      ((probed a 0 .options true (toInt (seq + 1)) (k.sessionid.or sessionid)
        (k.trackInfo.or trackInfo) (written ++ [.options base seq]) notified).client, false) := by
    simp only [RTSPClient.run, RTSPClient.doOption, probed, h.cut, Option.map_some]
    exact RTSPClient.request_eq .options rfl rfl not_false (h.options seq hseq)
  have hnotify := RtspSession.notify_eq (l := probe)
    (s := probed a 1 .describe false seq (k.sessionid.or sessionid) (k.trackInfo.or trackInfo)
      written notified) rfl hrun
  have hanswered : (probed a 1 .describe isSended seq sessionid trackInfo written
      notified).answered probe (fun c => c.adopt k) = RtspSession.notify probe
        (probed a 1 .describe false seq (k.sessionid.or sessionid) (k.trackInfo.or trackInfo)
          written notified) := if_neg htrack
  exact ⟨written ++ [.options base seq],
    RtspSession.respond_eq rfl rfl (hanswered.trans hnotify)⟩

/-- From `s` on, `probe` counts the responses and keeps the keys of the one at `i`. -/
structure Tells (i : Nat) (s : RtspSession Nat) (ks : List KeyData) : Prop where
  length : (ks.foldl (RtspSession.respond probe) s).notified.length =
    s.notified.length + ks.length
  trackInfo : (ks.foldl (RtspSession.respond probe) s).client.trackInfo =
    (ks[i]?.bind KeyData.trackInfo).or s.client.trackInfo
  sessionid : (ks.foldl (RtspSession.respond probe) s).client.sessionid =
    (ks[i]?.bind KeyData.sessionid).or s.client.sessionid

theorem tells_nil (i : Nat) (s : RtspSession Nat) : Tells i s [] := ⟨rfl, rfl, rfl⟩

/-- A response in front that is only counted. -/
theorem tells_cons {i : Nat} {s s' : RtspSession Nat} {k : KeyData} {ks : List KeyData}
    (hrespond : s.respond probe k = s') (hlength : s'.notified.length = s.notified.length + 1)
    (htrack : s'.client.trackInfo = s.client.trackInfo)
    (hsession : s'.client.sessionid = s.client.sessionid) (h : Tells i s' ks) :
    Tells (i + 1) s (k :: ks) := by
  subst hrespond
  refine ⟨h.length.trans ?_, h.trackInfo.trans ?_, h.sessionid.trans ?_⟩
  · rw [hlength, List.length_cons]
    omega
  · rw [htrack, List.getElem?_cons_succ]
  · rw [hsession, List.getElem?_cons_succ]

/-- Behind the one that is picked, every response is notified. -/
private theorem length_past (seq : Int) (ks : List KeyData) :
    let s := ks.foldl (RtspSession.respond probe)
      (probed a 0 .options isSended seq sessionid trackInfo written notified)
    s.notified.length = notified.length + ks.length ∧ s.client.trackInfo = trackInfo ∧
      s.client.sessionid = sessionid := by
  induction ks generalizing isSended notified with
  | nil => exact ⟨rfl, rfl, rfl⟩
  | cons k ks ih =>
    rw [List.foldl_cons, respond_past]
    obtain ⟨hlength, htrack, hsession⟩ := ih false (notified ++ [.status .options])
    refine ⟨hlength.trans ?_, htrack, hsession⟩
    rw [List.length_append, List.length_singleton, List.length_cons]
    omega

/-- With the status at DESCRIBE, the next response is the one that is picked. -/
theorem tells_picked (h : Short a base) {seq : Int} (hseq : seq = 1 ∨ seq = 2)
    (htrack : trackInfo.getD [] ≠ []) {ks : List KeyData}
    (hks : ∀ k ∈ ks, k.trackInfo ≠ some []) :
    Tells 0 (probed a 1 .describe isSended seq sessionid trackInfo written notified) ks := by
  cases ks with
  | nil => exact tells_nil _ _
  | cons k ks =>
    have hadopted : (k.trackInfo.or trackInfo).getD [] ≠ [] := by
      cases hk : k.trackInfo with
      | none => exact htrack
      | some track =>
        intro hnil
        exact hks k List.mem_cons_self (hk.trans (congrArg some hnil))
    obtain ⟨written', hrespond⟩ :=
      respond_picked isSended sessionid trackInfo written notified k h hseq hadopted
    obtain ⟨hlength, htracks, hsessions⟩ := length_past (a := a) true (k.sessionid.or sessionid)
      (k.trackInfo.or trackInfo) written' (notified ++ [.status .describe]) (toInt (seq + 1)) ks
    rw [← hrespond] at hlength htracks hsessions
    refine ⟨hlength.trans ?_, htracks, hsessions⟩
    rw [List.length_append, List.length_singleton, List.length_cons]
    exact Nat.add_right_comm _ _ _

/-- With the counter above that, it is the one that the counter says. -/
theorem tells_waiting (h : Short a base) (htrack : trackInfo.getD [] ≠ []) (i : Nat)
    {ks : List KeyData} (hks : ∀ k ∈ ks, k.trackInfo ≠ some []) :
    Tells (i + 1) (probed a (i + 2) .options isSended 1 sessionid trackInfo written notified)
      ks := by
  induction i generalizing isSended notified ks with
  | zero =>
    cases ks with
    | nil => exact tells_nil _ _
    | cons k ks =>
      rw [List.forall_mem_cons] at hks
      exact tells_cons (respond_before isSended sessionid trackInfo written notified k h)
        List.length_append rfl rfl
        (tells_picked true sessionid trackInfo _ _ h (Or.inr rfl) htrack hks.2)
  | succ i ih =>
    cases ks with
    | nil => exact tells_nil _ _
    | cons k ks =>
      rw [List.forall_mem_cons] at hks
      exact tells_cons (respond_waiting isSended sessionid trackInfo written notified k i)
        List.length_append rfl rfl (ih false _ hks.2)

end

/-- For every place in a list of responses there is a session that tells what is there. -/
theorem exists_tells (i : Nat) (x : List Char) (hx : x ≠ []) : ∃ s : RtspSession Nat,
    s.client.trackInfo = some x ∧ s.client.sessionid = some x ∧
      ∀ ks : List KeyData, (∀ k ∈ ks, k.trackInfo ≠ some []) → Tells i s ks := by
  obtain ⟨a, base, h⟩ := exists_short
  cases i with
  | zero =>
    exact ⟨probed a 1 .describe false 1 (some x) (some x) [] [], rfl, rfl,
      fun _ hks => tells_picked false _ (some x) _ _ h (Or.inl rfl) hx hks⟩
  | succ i =>
    exact ⟨probed a (i + 2) .options false 1 (some x) (some x) [] [], rfl, rfl,
      fun _ hks => tells_waiting false _ (some x) _ _ h hx i hks⟩

/-- A key that is the same whatever was there before is the same. -/
private theorem eq_of_or {p q : Option (List Char)}
    (h : ∀ x ≠ [], p.or (some x) = q.or (some x)) : p = q := by
  have h₁ := h ['1'] (List.cons_ne_nil _ _)
  have h₂ := h ['2'] (List.cons_ne_nil _ _)
  cases p with
  | none =>
    cases q with
    | none => rfl
    | some y =>
      rw [Option.none_or, Option.some_or] at h₁ h₂
      exact absurd (h₁.trans h₂.symm) (by decide)
  | some x =>
    cases q with
    | none =>
      rw [Option.none_or, Option.some_or] at h₁ h₂
      exact absurd (h₁.symm.trans h₂) (by decide)
    | some y => exact h₁

/-- Two ways of cutting a stream into chunks leave every client with every listener alike,
exactly if the same keys are in their chunks that start like a `200 OK`. -/
theorem reads_agree_iff (decode : List UInt8 → List Char) (xs ys : List Chunk) :
    (∀ (σ : Type) (l : Listener σ) (s : RtspSession σ),
      (s.reads decode l xs).observed = (s.reads decode l ys).observed) ↔
      okKeys decode xs = okKeys decode ys := by
  constructor
  · intro h
    have hvalid : ∀ zs, ∀ k ∈ okKeys decode zs, k.trackInfo ≠ some [] := by
      intro zs k hk
      obtain ⟨tmp, -, rfl⟩ := List.mem_map.mp hk
      exact keyData_trackInfo_ne_nil tmp
    have hsame : ∀ (i : Nat) (x : List Char), x ≠ [] →
        (okKeys decode xs).length = (okKeys decode ys).length ∧
        ((okKeys decode xs)[i]?.bind KeyData.trackInfo).or (some x) =
          ((okKeys decode ys)[i]?.bind KeyData.trackInfo).or (some x) ∧
        ((okKeys decode xs)[i]?.bind KeyData.sessionid).or (some x) =
          ((okKeys decode ys)[i]?.bind KeyData.sessionid).or (some x) := by
      intro i x hx
      obtain ⟨s, htrack, hsession, htells⟩ := exists_tells i x hx
      have hx' := htells _ (hvalid xs)
      have hy' := htells _ (hvalid ys)
      have heq := h Nat probe s
      rw [RtspSession.reads_eq, RtspSession.reads_eq] at heq
      have hn := congrArg (fun o => o.notified.length) heq
      have ht := congrArg RtspSession.Observed.trackInfo heq
      have hs := congrArg RtspSession.Observed.sessionid heq
      simp only [RtspSession.observed, hx'.length, hy'.length, hx'.trackInfo, hy'.trackInfo,
        hx'.sessionid, hy'.sessionid, htrack, hsession] at hn ht hs
      exact ⟨by omega, ht, hs⟩
    refine List.ext_getElem? fun i => ?_
    have hlen := (hsame 0 ['1'] (List.cons_ne_nil _ _)).1
    rcases Nat.lt_or_ge i (okKeys decode xs).length with hi | hi
    · have hi' : i < (okKeys decode ys).length := by omega
      have htrack := eq_of_or fun x hx => (hsame i x hx).2.1
      have hsession := eq_of_or fun x hx => (hsame i x hx).2.2
      rw [List.getElem?_eq_getElem hi, List.getElem?_eq_getElem hi'] at htrack hsession ⊢
      exact congrArg some (congrArg₂ KeyData.mk htrack hsession)
    · rw [List.getElem?_eq_none hi, List.getElem?_eq_none (by omega)]
  · intro h σ l s
    rw [RtspSession.reads_eq, RtspSession.reads_eq, h]

/-- A response to OPTIONS, complete. -/
def okResponse : List UInt8 :=
  "RTSP/1.0 200 OK\r\nCSeq: 1\r\n\r\n".toList.map fun c => UInt8.ofNat c.toNat

theorem okResponse_chunk : okResponse ≠ [] ∧ okResponse.length ≤ RTSPClient.bufferSize := by
  decide

theorem okResponse_head :
    okResponse.take 8 ≠ [] ∧ (okResponse.take 8).length ≤ RTSPClient.bufferSize := by decide

theorem okResponse_tail :
    okResponse.drop 8 ≠ [] ∧ (okResponse.drop 8).length ≤ RTSPClient.bufferSize := by decide

/-- The characters of a text in ASCII. -/
def ascii (bytes : List UInt8) : List Char := bytes.map fun b => Char.ofNat b.toNat

/-- A listener that only listens, to a client that has sent OPTIONS. -/
def waiting : RtspSession Unit where
  client :=
    { address := "rtsp://a/b".toList
      connected := true
      sysStatus := .options
      isSended := true
      seq := 2
      sessionid := none
      trackInfo := none
      shutdown := false
      errorTimes := 0
      written := [.options "rtsp://a".toList 1] }
  listener := ()
  notified := []
  cancelled := false

/-- The response is noticed in one piece, and not in two that are cut inside its first
line. -/
theorem not_reads_agree_cut :
    okResponse = okResponse.take 8 ++ okResponse.drop 8 ∧
      (waiting.reads ascii (fun _ _ => ((), [])) [⟨okResponse, okResponse_chunk⟩]).observed ≠
        (waiting.reads ascii (fun _ _ => ((), [])) [⟨okResponse.take 8, okResponse_head⟩,
          ⟨okResponse.drop 8, okResponse_tail⟩]).observed := by
  decide +kernel

end Jrtplib4Android
