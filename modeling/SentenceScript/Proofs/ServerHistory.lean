import SentenceScript.Snapshot.Json
import SentenceScript.Proofs.Feeding
import SentenceScript.Proofs.ServerTable

namespace SentenceScript

open SentenceScript.Action Text

/-- The address of the server that a command names. -/
def Command.server? : Command → Option String
  | .connectServer url _ | .disconnectServer url => some url
  | _ => none

/-- The connection that canned services give to a command, if it asks for one. -/
def Command.connection? (now : Instant) : Command → Option Connection
  | .connectServer url protocol => some ⟨url, protocol, true, now⟩
  | _ => none

/-- The last of some lines that names the server at an address. -/
def lastNaming (url : String) (lines : List String) : Option String :=
  lines.reverse.find? fun line => (Sentence.classify line).command.server? = some url

theorem lastNaming_cons (url line : String) (rest : List String) :
    lastNaming url (line :: rest) = (lastNaming url rest).or
      (if (Sentence.classify line).command.server? = some url then some line else none) := by
  simp only [lastNaming, List.reverse_cons, List.find?_append, List.find?_cons, List.find?_nil]
  by_cases h : (Sentence.classify line).command.server? = some url <;> simp [h]

namespace State

variable {settings : Settings} {now : Instant} {s t : State} {line : String}

theorem feed_server (world : World) (hl : s.loop.isCollecting = false)
    (hc : (Sentence.classify line).command.server?.isSome = true) :
    feed world line s = (Sentence.classify line).act world (Replay.close world) s := by
  refine feed_leaf world line ?_ hl ?_
  · rw [Bool.eq_false_iff]
    intro hb
    have hs : strip line.toList = [] := by simpa [trim] using hb
    have hu : (Sentence.classify line).command = .unknown := by
      rw [Sentence.classify, hs]
      rfl
    rw [hu] at hc
    cases hc
  · intro c yes no he
    rw [he] at hc
    cases hc

theorem feed_connect (hl : s.loop.isCollecting = false) {url protocol : String}
    (hc : (Sentence.classify line).command = .connectServer url protocol) :
    feed ⟨settings, Canned.services now⟩ line s =
      .ok () ({ s with servers := s.servers.insert url ⟨url, protocol, true, now⟩ }.say
        ("Connected to MCP server at " ++ url ++ " using " ++ protocol ++ " protocol")) := by
  rw [feed_server _ hl (by rw [hc]; rfl)]
  simp only [Sentence.act, hc]
  rfl

theorem feed_disconnect (hl : s.loop.isCollecting = false) {url : String}
    (hc : (Sentence.classify line).command = .disconnectServer url)
    (hs : (s.servers.get? url).isSome = true) :
    feed ⟨settings, Canned.services now⟩ line s =
      .ok () ({ s with servers := s.servers.erase url }.say
        ("Disconnected from MCP server at " ++ url)) := by
  obtain ⟨connection, hg⟩ := Option.isSome_iff_exists.1 hs
  rw [feed_server _ hl (by rw [hc]; rfl)]
  simp only [Sentence.act, hc, disconnectServer, demand, bind_assoc, get_bind, hg]
  rfl

theorem feed_disconnect_missing (hl : s.loop.isCollecting = false) {url : String}
    (hc : (Sentence.classify line).command = .disconnectServer url)
    (hs : s.servers.get? url = none) :
    feed ⟨settings, Canned.services now⟩ line s = .error (.missing (.server url)) s := by
  rw [feed_server _ hl (by rw [hc]; rfl)]
  simp only [Sentence.act, hc, disconnectServer, demand, bind_assoc, get_bind, hs]
  rfl

/-- A line that names a server and succeeds changes the table under its address, and nothing else but
the log. -/
theorem feed_server_ok (hl : s.loop.isCollecting = false) {url : String}
    (hs : (Sentence.classify line).command.server? = some url)
    (h : feed ⟨settings, Canned.services now⟩ line s = .ok () t) :
    t = { s with servers := t.servers, log := t.log } ∧ ∀ other, t.servers.get? other =
      if other = url then (Sentence.classify line).command.connection? now
      else s.servers.get? other := by
  cases hc : (Sentence.classify line).command with
  | connectServer url' protocol =>
      rw [hc] at hs
      cases hs
      cases (feed_connect hl hc).symm.trans h
      exact ⟨rfl, fun other => Servers.get?_insert s.servers url other _⟩
  | disconnectServer url' =>
      rw [hc] at hs
      cases hs
      cases hg : s.servers.get? url with
      | none => cases (feed_disconnect_missing hl hc hg).symm.trans h
      | some connection =>
          cases (feed_disconnect hl hc (by rw [hg]; rfl)).symm.trans h
          exact ⟨rfl, fun other => Servers.get?_erase s.servers url other⟩
  | _ => rw [hc] at hs; cases hs

/-- After lines that name servers, what stands under an address is told by the last line that names
it. -/
theorem feedAll_servers {lines : List String} (hl : s.loop.isCollecting = false)
    (hs : ∀ line ∈ lines, (Sentence.classify line).command.server?.isSome = true)
    (h : feedAll ⟨settings, Canned.services now⟩ lines s = .ok () t) :
    t = { s with servers := t.servers, log := t.log } ∧ ∀ url, t.servers.get? url =
      (lastNaming url lines).elim (s.servers.get? url) fun line =>
        (Sentence.classify line).command.connection? now := by
  induction lines generalizing s with
  | nil =>
      cases feedAll_nil.symm.trans h
      exact ⟨rfl, fun url => rfl⟩
  | cons line rest ih =>
      obtain ⟨hline, hrest⟩ := List.forall_mem_cons.1 hs
      obtain ⟨named, hn⟩ := Option.isSome_iff_exists.1 hline
      cases hf : feed ⟨settings, Canned.services now⟩ line s with
      | error e u => cases (feedAll_cons_error hf).symm.trans h
      | ok _ u =>
          rw [feedAll_cons_ok hf] at h
          obtain ⟨hu, hget⟩ := feed_server_ok hl hn hf
          have hloop : u.loop = s.loop := by rw [hu]
          obtain ⟨ht, hlast⟩ := ih (by rwa [hloop]) hrest h
          refine ⟨by rw [ht, hu], fun url => ?_⟩
          rw [hlast, lastNaming_cons, hn]
          cases lastNaming url rest with
          | some later => rfl
          | none =>
              rw [Option.elim_none, hget, Option.none_or]
              by_cases heq : url = named
              · rw [if_pos heq, heq, if_pos rfl, Option.elim_some]
              · rw [if_neg heq, if_neg fun he => heq (Option.some.inj he).symm, Option.elim_none]

end State

namespace Json

def member? (key : String) : Json → Option Json
  | .object members => members.lookup key
  | _ => none

variable (l : Layout) (depth : Nat)

theorem writeMembers_append (first rest : List (String × Json)) :
    writeMembers l depth (first ++ rest) =
      writeMembers l depth first ++ writeMembers l depth rest := by
  induction first with
  | nil => rw [List.nil_append, writeMembers, List.nil_append]
  | cons m first ih => simp only [List.cons_append, writeMembers, ih, List.append_assoc]

/-- What stands before a member of an object is told by its key and the members before it. -/
theorem write_object_member (before : List (String × Json)) (key : String) :
    ∃ front, ∀ value after, ∃ back,
      write l depth (.object (before ++ (key, value) :: after)) =
        front ++ write l (depth + 1) value ++ back := by
  cases before with
  | nil =>
      refine ⟨'{' :: l.gap (depth + 1) ++ quote key ++ l.colon, fun value after =>
        ⟨writeMembers l (depth + 1) after ++ l.gap depth ++ ['}'], ?_⟩⟩
      simp only [List.nil_append, write, List.append_assoc, List.cons_append]
  | cons m before =>
      refine ⟨'{' :: l.gap (depth + 1) ++ quote m.1 ++ l.colon ++ write l (depth + 1) m.2 ++
        writeMembers l (depth + 1) before ++ ',' :: l.gap (depth + 1) ++ quote key ++ l.colon,
        fun value after => ⟨writeMembers l (depth + 1) after ++ l.gap depth ++ ['}'], ?_⟩⟩
      simp only [List.cons_append, write, writeMembers_append, writeMembers, List.append_assoc]

end Json

/-- The servers of a snapshot as they are written, in the order in which they are listed. -/
def Snapshot.writtenServers (v : Snapshot) : List (String × Json) :=
  v.servers.entries.map fun entry => (entry.1, entry.2.toJson)

theorem Snapshot.member?_servers (v : Snapshot) :
    v.toJson.member? "mcpServers" = some (.object v.writtenServers) := rfl

theorem Snapshot.writtenServers_sorted (v : Snapshot) :
    (v.writtenServers.map fun m => bytes m.1).Pairwise (· < ·) := by
  rw [writtenServers, List.map_map, List.pairwise_map]
  exact v.servers.sorted.imp bytes_lt

/-- The text of a snapshot up to its servers does not depend on what is behind them. -/
theorem Snapshot.write_servers (v : Snapshot) (l : Json.Layout) :
    ∃ front, ∀ log, ∃ back, { v with log }.toJson.write l 0 =
      front ++ (Json.object v.writtenServers).write l 1 ++ back := by
  obtain ⟨front, h⟩ := Json.write_object_member l 0
    [("variables", .object (v.bindings.map fun p => (p.1, p.2.toJson))),
     ("tasks", .array (v.tasks.map Task.toJson)), ("loopState", v.loop.toJson),
     ("apiEndpoint", .ofOption .text v.endpoint),
     ("apiResponse", .ofOption SearchResponse.toJson v.response)] "mcpServers"
  exact ⟨front, fun log => h (.object v.writtenServers)
    [("pendingLlmRequest", .ofOption ModelRequest.toJson v.request),
     ("llmResponse", .ofOption ModelReply.toJson v.reply), ("output", .array (log.map .text))]⟩

/-- Of lines that connect and disconnect servers only the last one for each address counts. Where it
has the same command in two rows of such lines, or is in neither, the two end with the same servers
and with snapshots that differ in their logs alone. The servers are written with the same text in the
same place of both, in the order of the bytes of their addresses. -/
theorem servers_told_by_last_lines {settings : Settings} {now : Instant} {s t u : State}
    {first second : List String} (hl : s.loop.isCollecting = false)
    (hfirst : ∀ line ∈ first, (Sentence.classify line).command.server?.isSome = true)
    (hsecond : ∀ line ∈ second, (Sentence.classify line).command.server?.isSome = true)
    (ht : s.feedAll ⟨settings, Canned.services now⟩ first = .ok () t)
    (hu : s.feedAll ⟨settings, Canned.services now⟩ second = .ok () u)
    (h : ∀ url, (lastNaming url first).map (fun line => (Sentence.classify line).command) =
      (lastNaming url second).map fun line => (Sentence.classify line).command) :
    t.servers = u.servers ∧
      Snapshot.capture t = { Snapshot.capture u with log := t.log } ∧
      ∃ members : List (String × Json),
        (members.map fun m => bytes m.1).Pairwise (· < ·) ∧
        (Snapshot.capture t).toJson.member? "mcpServers" = some (.object members) ∧
        (Snapshot.capture u).toJson.member? "mcpServers" = some (.object members) ∧
        ∀ l : Json.Layout, ∃ front back back',
          (Snapshot.capture t).toJson.write l 0 =
            front ++ (Json.object members).write l 1 ++ back ∧
          (Snapshot.capture u).toJson.write l 0 =
            front ++ (Json.object members).write l 1 ++ back' := by
  obtain ⟨htrest, htget⟩ := State.feedAll_servers hl hfirst ht
  obtain ⟨hurest, huget⟩ := State.feedAll_servers hl hsecond hu
  have hservers : t.servers = u.servers := by
    refine Servers.ext_get? fun url => ?_
    have hurl := h url
    rw [htget, huget]
    cases hf : lastNaming url first with
    | none =>
        rw [hf, Option.map_none, eq_comm, Option.map_eq_none_iff] at hurl
        rw [hurl]
    | some line =>
        rw [hf, Option.map_some, eq_comm, Option.map_eq_some_iff] at hurl
        obtain ⟨line', hs, hc⟩ := hurl
        rw [hs, Option.elim_some, Option.elim_some, hc]
  have hcapture : Snapshot.capture t = { Snapshot.capture u with log := t.log } := by
    rw [htrest, hurest, hservers]
    rfl
  refine ⟨hservers, hcapture, (Snapshot.capture u).writtenServers,
    (Snapshot.capture u).writtenServers_sorted, ?_, Snapshot.member?_servers _, fun l => ?_⟩
  · rw [hcapture]
    exact Snapshot.member?_servers _
  · obtain ⟨front, hfront⟩ := (Snapshot.capture u).write_servers l
    obtain ⟨back, hback⟩ := hfront t.log
    obtain ⟨back', hback'⟩ := hfront u.log
    exact ⟨front, back, back', by rw [hcapture]; exact hback, hback'⟩

/-- Two servers are connected in either order. In the second row one of them was there before by
another protocol, and was disconnected. -/
theorem servers_told_by_last_lines_reconnected :
    let first := ["connect to mcp server at \"b\" with protocol \"ws\"",
      "connect to mcp server at \"a\" with protocol \"ws\""]
    let second := ["connect to mcp server at \"a\" with protocol \"tcp\"",
      "disconnect from mcp server \"a\"", "connect to mcp server at \"a\" with protocol \"ws\"",
      "Connect to MCP server at \"b\" with protocol \"ws\""]
    ∃ t u : State, State.feedAll ⟨{}, Canned.services .epoch⟩ first {} = .ok () t ∧
      State.feedAll ⟨{}, Canned.services .epoch⟩ second {} = .ok () u ∧
      t.servers = u.servers ∧ t.servers.entries.map Prod.fst = ["a", "b"] ∧
      t.log.length = 2 ∧ u.log.length = 4 := by
  intro first second
  have hb : (Sentence.classify "connect to mcp server at \"b\" with protocol \"ws\"").command =
      .connectServer "b" "ws" := by rfl
  have hb' : (Sentence.classify "Connect to MCP server at \"b\" with protocol \"ws\"").command =
      .connectServer "b" "ws" := by rfl
  have ha : (Sentence.classify "connect to mcp server at \"a\" with protocol \"ws\"").command =
      .connectServer "a" "ws" := by rfl
  have hold : (Sentence.classify "connect to mcp server at \"a\" with protocol \"tcp\"").command =
      .connectServer "a" "tcp" := by rfl
  have hout : (Sentence.classify "disconnect from mcp server \"a\"").command =
      .disconnectServer "a" := by rfl
  have ht : State.feedAll ⟨{}, Canned.services .epoch⟩ first {} = .ok () _ :=
    (State.feedAll_cons_ok (State.feed_connect rfl hb)).trans <|
      (State.feedAll_cons_ok (State.feed_connect rfl ha)).trans State.feedAll_nil
  have hu : State.feedAll ⟨{}, Canned.services .epoch⟩ second {} = .ok () _ :=
    (State.feedAll_cons_ok (State.feed_connect rfl hold)).trans <|
      (State.feedAll_cons_ok (State.feed_disconnect rfl hout rfl)).trans <|
      (State.feedAll_cons_ok (State.feed_connect rfl ha)).trans <|
      (State.feedAll_cons_ok (State.feed_connect rfl hb')).trans State.feedAll_nil
  have hlast (url : String) :
      (lastNaming url first).map (fun line => (Sentence.classify line).command) =
        (lastNaming url second).map fun line => (Sentence.classify line).command := by
    simp only [first, second, lastNaming_cons, hb, hb', ha, hold, hout, Command.server?]
    by_cases hua : "a" = url
    · subst hua
      simp [lastNaming, ha]
    · by_cases hub : "b" = url
      · subst hub
        simp [lastNaming, hb, hb']
      · simp [lastNaming, hua, hub]
  have hservers := servers_told_by_last_lines rfl (by simp [first, hb, ha, Command.server?])
    (by simp [second, hb', ha, hold, hout, Command.server?]) ht hu hlast
  exact ⟨_, _, ht, hu, hservers.1, rfl, rfl, rfl⟩

end SentenceScript
