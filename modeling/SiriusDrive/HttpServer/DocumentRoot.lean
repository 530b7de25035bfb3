import SiriusDrive.HttpServer.RequestGrammar

/-! # What a connection serves

A connection replies once, to what it has received and not to the pieces in which that came. The
files it opens for a reply lie below the document root, however the request is encoded.
-/

namespace SiriusDrive.Http

/-! ## Below a folder -/

/-- The names in a path, between its slashes. -/
def components : List UInt8 → List (List UInt8)
  | [] => [[]]
  | c :: rest =>
      if c = '/'.toUInt8 then [] :: components rest
      else
        match components rest with
        | [] => [[c]]
        | first :: others => (c :: first) :: others

/-- Where the names lead from a folder, which is given by the names from the root to it. -/
def walk (folder : List (List UInt8)) : List (List UInt8) → List (List UInt8)
  | [] => folder
  | name :: names =>
      if name = [] ∨ name = text "." then walk folder names
      else if name = text ".." then walk folder.dropLast names
      else walk (folder ++ [name]) names

/-- The path starts at the folder and never leaves it on the way. -/
def IsBelow (docRoot path : List UInt8) : Prop :=
  ∃ below, path = docRoot ++ '/'.toUInt8 :: below ∧
    ∀ names, names <+: components below → ∀ folder, folder <+: walk folder names

theorem walk_extends {folder : List (List UInt8)} {names : List (List UInt8)}
    (noDotDot : text ".." ∉ names) : folder <+: walk folder names := by
  induction names generalizing folder with
  | nil => simp [walk]
  | cons name names ih =>
      simp only [List.mem_cons, not_or] at noDotDot
      have notHere : name ≠ text ".." := fun same => noDotDot.1 same.symm
      simp only [walk, notHere, if_false]
      split
      · exact ih noDotDot.2
      · exact (List.prefix_append _ _).trans (ih noDotDot.2)

theorem infix_of_mem_components {path component : List UInt8} (member : component ∈ components path) :
    component <:+: path ∧ ((components path).head? = some component → component <+: path) := by
  induction path generalizing component with
  | nil =>
      obtain rfl : component = [] := by simpa [components] using member
      simp
  | cons c rest ih =>
      simp only [components] at member ⊢
      split at member
      · rename_i isSlash
        simp only [isSlash, if_true, List.head?_cons, Option.some.injEq]
        cases List.mem_cons.mp member with
        | inl isNil => simp [isNil]
        | inr later =>
            exact ⟨(ih later).1.trans (List.infix_cons (List.infix_refl rest)), by
              rintro rfl
              simp⟩
      · rename_i notSlash
        simp only [notSlash, if_false]
        cases split : components rest with
        | nil =>
            simp only [split, List.mem_singleton] at member
            have single : [c] <+: c :: rest := ⟨rest, rfl⟩
            subst member
            exact ⟨single.isInfix, fun _ => single⟩
        | cons first others =>
            simp only [split, List.mem_cons] at member
            have isMember : first ∈ components rest := by simp [split]
            have firstPrefix := (ih isMember).2 (by simp [split])
            have whole : c :: first <+: c :: rest := (List.cons_prefix_cons).mpr ⟨rfl, firstPrefix⟩
            cases member with
            | inl here => exact here ▸ ⟨whole.isInfix, fun _ => whole⟩
            | inr later =>
                refine ⟨(ih (by simp [split, later])).1.trans
                  (List.infix_cons (List.infix_refl rest)), ?_⟩
                rintro isHead
                simp only [List.head?_cons, Option.some.injEq] at isHead
                exact isHead ▸ whole

theorem dotDot_eq : text ".." = ['.'.toUInt8, '.'.toUInt8] := rfl

theorem containsDotDot_iff {path : List UInt8} :
    containsDotDot path = true ↔ text ".." <:+: path := by
  induction path with
  | nil => simp [containsDotDot, dotDot_eq]
  | cons c rest ih =>
      rw [List.infix_cons_iff, ← ih]
      cases rest with
      | nil => simp [containsDotDot, dotDot_eq]
      | cons d rest =>
          have isPrefix : text ".." <+: c :: d :: rest ↔ c = '.'.toUInt8 ∧ d = '.'.toUInt8 := by
            rw [dotDot_eq, List.cons_prefix_cons, List.cons_prefix_cons]
            simp [eq_comm (a := c), eq_comm (a := d)]
          simp [containsDotDot, isPrefix]

theorem slash_ne_dot : '/'.toUInt8 ≠ '.'.toUInt8 := by decide

theorem isBelow_of_containsDotDot {docRoot below : List UInt8}
    (noDotDot : containsDotDot ('/'.toUInt8 :: below) = false) :
    IsBelow docRoot (docRoot ++ '/'.toUInt8 :: below) := by
  refine ⟨below, rfl, ?_⟩
  intro names isPrefix folder
  apply walk_extends
  intro member
  have inBelow := (infix_of_mem_components (isPrefix.subset member)).1
  have inPath : text ".." <:+: '/'.toUInt8 :: below :=
    inBelow.trans (List.infix_cons (List.infix_refl below))
  have found := containsDotDot_iff.mpr inPath
  simp [noDotDot] at found

theorem containsDotDot_append_slash (front rest : List UInt8) :
    containsDotDot (front ++ '/'.toUInt8 :: rest) =
      (containsDotDot front || containsDotDot rest) := by
  induction front with
  | nil =>
      cases rest with
      | nil => simp [containsDotDot]
      | cons c rest => simp [containsDotDot, slash_ne_dot]
  | cons c front ih =>
      cases front with
      | nil =>
          simp only [List.nil_append] at ih
          simp [containsDotDot, ih, slash_ne_dot]
      | cons d front =>
          simp only [List.cons_append] at ih
          simp [containsDotDot, ih, Bool.or_assoc]

theorem containsDotDot_takeWhile {path : List UInt8} (noDotDot : containsDotDot path = false)
    (p : UInt8 → Bool) : containsDotDot (path.takeWhile p) = false := by
  rw [Bool.eq_false_iff] at noDotDot ⊢
  intro found
  exact noDotDot (containsDotDot_iff.mpr
    ((containsDotDot_iff.mp found).trans (List.takeWhile_prefix p).isInfix))

/-- The path of a good request starts with a slash and has no double dot in it. -/
theorem requestPath_spec {request : Request} {path : List UInt8}
    (isPath : requestPath request = some path) :
    ∃ below, path = '/'.toUInt8 :: below ∧ containsDotDot path = false := by
  unfold requestPath at isPath
  split at isPath
  · simp at isPath
  · rename_i decoded _
    split at isPath
    · simp at isPath
    · rename_i allowed
      simp only [not_or, Decidable.not_not, Bool.not_eq_true] at allowed
      obtain ⟨isSlash, noDotDot⟩ := allowed
      cases decoded with
      | nil => simp at isSlash
      | cons c below =>
          obtain rfl : c = '/'.toUInt8 := by simpa using isSlash
          split at isPath
          · rename_i endsInSlash
            simp only [Option.some.injEq] at isPath
            refine ⟨below ++ text "index.html", by simp [← isPath], ?_⟩
            obtain ⟨front, isFront⟩ := List.getLast?_eq_some_iff.mp endsInSlash
            rw [← isPath, isFront, List.append_assoc]
            rw [isFront, containsDotDot_append_slash] at noDotDot
            simp only [Bool.or_eq_false_iff] at noDotDot
            simp only [List.cons_append, List.nil_append, containsDotDot_append_slash, noDotDot.1]
            decide
          · simp only [Option.some.injEq] at isPath
            exact ⟨below, isPath.symm, isPath ▸ noDotDot⟩

/-- The path that is opened for a request lies below the document root. -/
theorem isBelow_openedPath {docRoot : List UInt8} {request : Request} {path : List UInt8}
    (noZero : 0 ∉ docRoot) (isPath : requestPath request = some path) :
    IsBelow docRoot (openedPath docRoot path) := by
  obtain ⟨below, rfl, noDotDot⟩ := requestPath_spec isPath
  have goesOn : ('/'.toUInt8 :: below).takeWhile (· ≠ 0) =
      '/'.toUInt8 :: below.takeWhile (· ≠ 0) := List.takeWhile_cons_of_pos (by decide)
  have opened : openedPath docRoot ('/'.toUInt8 :: below) =
      docRoot ++ '/'.toUInt8 :: below.takeWhile (· ≠ 0) := by
    rw [openedPath, List.takeWhile_append_of_pos]
    · rw [goesOn]
    · intro c member
      have notZero : c ≠ 0 := fun isZero => noZero (isZero ▸ member)
      simpa using notZero
  rw [opened]
  apply isBelow_of_containsDotDot
  rw [← goesOn]
  exact containsDotDot_takeWhile noDotDot _

/-- Of two sets of files that are the same below the document root every request gets the same
    reply: nothing outside is read, whatever the request encodes. -/
theorem handleRequest_congr {docRoot : List UInt8} {files others : List UInt8 → Option (List UInt8)}
    (noZero : 0 ∉ docRoot) (same : ∀ path, IsBelow docRoot path → files path = others path)
    (request : Request) :
    handleRequest docRoot files request = handleRequest docRoot others request := by
  unfold handleRequest
  cases isPath : requestPath request with
  | none => simp
  | some path => simp [same _ (isBelow_openedPath noZero isPath)]

/-- A file outside the document root changes no reply. -/
theorem handleRequest_of_index :
    handleRequest (text "/www") (fun path => if path = text "/www/a/index.html" then some [1] else none)
        { uri := text "/a%2f" } =
      handleRequest (text "/www")
        (fun path => if path = text "/www/a/index.html" then some [1] else
          if path = text "/etc/passwd" then some [2] else none) { uri := text "/a%2f" } := by
  refine handleRequest_congr (by decide) ?_ _
  rintro path ⟨below, rfl, -⟩
  have notOutside : text "/www" ++ '/'.toUInt8 :: below ≠ text "/etc/passwd" := by
    intro same
    have fronts := congrArg (List.take 4) same
    rw [List.take_append_of_le_length (by decide)] at fronts
    revert fronts
    decide
  simp [notOutside]

/-! ## The connection -/

/-- The reply to what has been received, once that is enough for one. -/
def replyTo (docRoot : List UInt8) (files : List UInt8 → Option (List UInt8))
    (received : List UInt8) : Option Reply :=
  match Parser.parse {} received with
  | (.good, _, last) => some (handleRequest docRoot files last.request)
  | (.bad, _, _) => some (stockReply .badRequest)
  | (.indeterminate, _, _) => none

namespace Connection

def Event.received : Event → List UInt8
  | .read bytes => bytes
  | .written | .failed => []

def writes (connection : Connection) : Event → List (List UInt8)
  | .written => connection.reply.toList.map Reply.bytes
  | .read _ | .failed => []

variable {docRoot : List UInt8} {files : List UInt8 → Option (List UInt8)}

/-- The invariant of a connection that has received these bytes. -/
structure Serves (docRoot : List UInt8) (files : List UInt8 → Option (List UInt8))
    (received : List UInt8) (connection : Connection) : Prop where
  isReply : connection.reply = replyTo docRoot files received
  reads : connection.phase = .reading →
    Parser.parse {} received = (.indeterminate, [], connection.parser)
  replies : connection.phase = .writing → connection.reply.isSome

theorem Serves.onRead {received bytes : List UInt8} {connection : Connection}
    (serves : connection.Serves docRoot files received) (reading : connection.phase = .reading) :
    (connection.onRead docRoot files bytes).Serves docRoot files (received ++ bytes) := by
  have more := Parser.parse_append {} received bytes
  simp only [serves.reads reading] at more
  have noReply : connection.reply = none := by
    simp [serves.isReply, replyTo, serves.reads reading]
  unfold Connection.onRead
  cases parsed : connection.parser.parse bytes with
  | mk result others =>
      obtain ⟨rest, last⟩ := others
      rw [parsed] at more
      cases result with
      | good => exact ⟨by simp [replyTo, more], by simp, by simp⟩
      | bad => exact ⟨by simp [replyTo, more], by simp, by simp⟩
      | indeterminate =>
          obtain rfl := Parser.parse_eq_of_indeterminate parsed
          exact ⟨by simp [replyTo, more, noReply], fun _ => more, by simp [reading]⟩

theorem events_of_stopped {connection after : Connection} {events : List Event}
    (stopped : connection.phase = .stopped)
    (run : (connections docRoot files).exec connection events = some after) :
    events = [] ∧ after = connection := by
  cases events with
  | nil => exact ⟨rfl, by simpa [eq_comm] using run⟩
  | cons event events =>
      obtain ⟨middle, step, -⟩ := ((connections docRoot files).exec_cons_iff).mp run
      cases event <;> simp [connections, Connection.step, stopped] at step

theorem Serves.run {received : List UInt8} {connection after : Connection} {events : List Event}
    (serves : connection.Serves docRoot files received)
    (run : (connections docRoot files).exec connection events = some after) :
    after.Serves docRoot files (received ++ events.flatMap Event.received) ∧
      (connections docRoot files).trace writes connection events <+:
        (replyTo docRoot files (received ++ events.flatMap Event.received)).toList.map
          Reply.bytes := by
  induction events generalizing connection received with
  | nil =>
      obtain rfl : connection = after := by simpa using run
      simpa [Transition.trace] using serves
  | cons event events ih =>
      obtain ⟨middle, step, rest⟩ := ((connections docRoot files).exec_cons_iff).mp run
      rw [Transition.trace_cons step]
      cases event with
      | read bytes =>
          simp only [connections, Connection.step, Option.ite_none_right_eq_some,
            Option.some.injEq] at step
          obtain ⟨⟨reading, -⟩, rfl⟩ := step
          simpa [Event.received, writes] using ih (serves.onRead reading) rest
      | written =>
          simp only [connections, Connection.step, Option.ite_none_right_eq_some,
            Option.some.injEq] at step
          obtain ⟨writing, rfl⟩ := step
          obtain ⟨rfl, rfl⟩ := events_of_stopped rfl rest
          exact ⟨⟨by simp [Event.received, serves.isReply], by simp, by simp⟩,
            by simp [Event.received, writes, Transition.trace, serves.isReply]⟩
      | failed =>
          simp only [connections, Connection.step, Option.ite_none_left_eq_some,
            Option.some.injEq] at step
          obtain ⟨-, rfl⟩ := step
          obtain ⟨rfl, rfl⟩ := events_of_stopped rfl rest
          exact ⟨⟨by simp [Event.received, serves.isReply], by simp, by simp⟩,
            by simp [Event.received, writes, Transition.trace]⟩

theorem headers_of_replyTo {received : List UInt8} {reply : Reply}
    (isReply : replyTo docRoot files received = some reply) :
    ∃ type, reply.headers = contentHeaders reply.content type := by
  unfold replyTo at isReply
  split at isReply
  · simp only [Option.some.injEq, handleRequest] at isReply
    subst isReply
    split
    · exact ⟨_, rfl⟩
    · split <;> exact ⟨_, rfl⟩
  · simp only [Option.some.injEq] at isReply
    subst isReply
    exact ⟨_, rfl⟩
  · simp at isReply

/-- A connection reads until there is a reply and writes at most this one, which follows from
    what was received alone: not from the pieces in which it came. The reply says how long its
    content is. -/
theorem written_of_run {connection : Connection} {events : List Event}
    (run : (connections docRoot files).exec {} events = some connection) :
    (connections docRoot files).trace writes {} events <+:
        (replyTo docRoot files (events.flatMap Event.received)).toList.map Reply.bytes ∧
      (connection.phase = .reading → replyTo docRoot files (events.flatMap Event.received) = none) ∧
      (connection.phase = .writing →
        connection.reply = replyTo docRoot files (events.flatMap Event.received) ∧
          connection.reply.isSome) ∧
      ∀ reply, replyTo docRoot files (events.flatMap Event.received) = some reply →
        ∃ type, reply.headers = contentHeaders reply.content type := by
  have start : ({} : Connection).Serves docRoot files [] :=
    ⟨by simp [replyTo, Parser.parse], by simp [Parser.parse], by simp⟩
  obtain ⟨serves, written⟩ := start.run run
  simp only [List.nil_append] at serves written
  refine ⟨written, ?_, fun writing => ⟨serves.isReply, serves.replies writing⟩,
    fun reply isReply => headers_of_replyTo isReply⟩
  intro reading
  simp [replyTo, serves.reads reading]

private def servedFiles (path : List UInt8) : Option (List UInt8) :=
  if path = text "/www/a" then some [7] else none

private def twoPieces : List Event :=
  [.read (text "GET /a HT"), .read (text "TP/1.1\r\nHost: x\r\n\r\n"), .written]

theorem written_of_twoPieces :
    (connections (text "/www") servedFiles).trace writes {} twoPieces <+:
      [text "HTTP/1.0 200 OK\r\nContent-Length: 1\r\nContent-Type: text/plain\r\n\r\n" ++ [7]] := by
  have run : (connections (text "/www") servedFiles).exec {} twoPieces =
      some (((connections (text "/www") servedFiles).exec {} twoPieces).getD {}) := by
    decide +kernel
  have served : (replyTo (text "/www") servedFiles (twoPieces.flatMap Event.received)).toList.map
      Reply.bytes =
        [text "HTTP/1.0 200 OK\r\nContent-Length: 1\r\nContent-Type: text/plain\r\n\r\n" ++ [7]] := by
    decide +kernel
  exact served ▸ (written_of_run run).1

end Connection

end SiriusDrive.Http
