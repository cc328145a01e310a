import Relay.Proofs.Hub.Routing
import Relay.Proofs.Json.Printing
import Relay.Proofs.Json.Spelling

namespace Relay

/-! Frames that say the same are handled in the same way, however they are spelled. The compact
text of a value that was read says the same in all but its binary numbers: the reader may make
other numbers of their shortest texts, and then the request that is read is another one if it
keeps such a number. -/

open Json

namespace Request

theorem decode_of_content {left right : String} {phrase other : Phrase}
    (derived : IsText phrase left.toList) (otherDerived : IsText other right.toList)
    (same : phrase.content = other.content) {request read : Request}
    (accepted : decode left = .ok request) (otherAccepted : decode right = .ok read) :
    request = read := by
  rcases exists_entries_of_decode accepted
    with ⟨members, values, isText, stands, _, isRequest⟩
  rcases exists_entries_of_decode otherAccepted
    with ⟨others, reads, otherIsText, otherStands, _, isRead⟩
  rw [derived.unique isText, otherDerived.unique otherIsText] at same
  have objectStands : (Phrase.object members).value? = some (.object values) := by
    rw [Phrase.value?, stands]
    rfl
  have otherObjectStands : (Phrase.object others).value? = some (.object reads) := by
    rw [Phrase.value?, otherStands]
    rfl
  have normal := Phrase.normalize_of_content _ same objectStands otherObjectStands
  rw [Json.normalize, Json.normalize, Json.object.injEq] at normal
  rw [isRequest, isRead, normal]

theorem Holds.unique {frame : String} {members others : Members} (holds : Holds frame members)
    (otherHolds : Holds frame others) : members = others := by
  rcases holds with ⟨value, parsed, isObject⟩
  rcases otherHolds with ⟨other, otherParsed, isOther⟩
  rw [parsed, Option.some.injEq] at otherParsed
  rw [otherParsed, isOther, Json.object.injEq] at isObject
  exact isObject.symm

/-! ## What is kept -/

/-- The part of an object that its request keeps: all of it for a ping, the message of an echo
or a broadcast, and the type if it is unknown. -/
def kept (members : Members) : Json :=
  match ofMembers members with
  | .ping envelope => envelope
  | .echo message | .broadcast message => message
  | .stats => .null
  | .unknown _ => (members.get? "type").getD .null

theorem exists_decode_render {frame : String} {members : Members}
    (holds : Holds frame members) :
    ∃ read, members.reread? Envelope.payloadDepth = some read ∧
      decode (Json.object members).render = .ok (ofMembers read) := by
  rcases Option.isSome_iff_exists.mp (Members.isSome_reread? holds.depth_le) with ⟨read, reread⟩
  have parsed : Json.parse? (Json.object members).render.toList = some (.object read) := by
    rw [Json.render, String.toList_ofList, Json.parse?_text]
    change (members.reread? Envelope.payloadDepth).map Json.object = _
    rw [reread]
    rfl
  have normal : (Json.object read).IsNormal := members.isNormal_of_reread? reread holds.isNormal
  refine ⟨read, reread, ?_⟩
  rw [decode, parsed]
  simp only [(Json.object read).normalize_of_isNormal normal]

section Reread

variable {members read : Members} {levels : Nat}

theorem get?_eq_none_of_reread? (reread : members.reread? levels = some read) {key : String}
    (absent : members.get? key = none) : read.get? key = none := by
  have same := Members.get?_of_reread? key reread
  rw [absent, Option.map_none, eq_comm, Option.map_eq_none_iff] at same
  exact same

theorem exists_get?_of_reread? (reread : members.reread? levels = some read) {key : String}
    {value : Json} (found : members.get? key = some value) :
    ∃ again, value.reread? levels = some again ∧ read.get? key = some again := by
  have same := Members.get?_of_reread? key reread
  rw [found, Option.map_some, eq_comm, Option.map_eq_some_iff] at same
  rcases same with ⟨again, foundAgain, isReread⟩
  exact ⟨again, isReread.symm, foundAgain⟩

theorem messageOf_reread? (reread : members.reread? levels = some read) :
    (messageOf members).reread? levels = some (messageOf read) := by
  unfold messageOf
  cases found : members.get? "message" with
  | none =>
      rw [get?_eq_none_of_reread? reread found]
      rfl
  | some message =>
      rcases exists_get?_of_reread? reread found with ⟨again, isReread, foundAgain⟩
      rw [foundAgain]
      exact isReread

theorem messageOf_eq_iff (shallow : members.depth ≤ levels)
    (reread : members.reread? levels = some read) :
    messageOf read = messageOf members ↔
      ∀ real ∈ (messageOf members).reals, real.ReadsBack :=
  Json.eq_of_reread?_iff (Nat.le_trans (depth_messageOf_le members) shallow)
    (messageOf_reread? reread)

theorem members_eq_iff (shallow : members.depth ≤ levels)
    (reread : members.reread? levels = some read) :
    read = members ↔ ∀ real ∈ members.reals, real.ReadsBack := by
  have same := members.reread?_eq_self_iff levels
  rw [reread, Option.some.injEq, and_iff_right shallow] at same
  exact same

theorem ofMembers_of_stats {members : Members}
    (isStats : members.get? "type" = some (.string "stats")) : ofMembers members = .stats := by
  simp [ofMembers, typeOf_of_string isStats]

theorem ofMembers_reread_of_string (shallow : members.depth ≤ levels)
    (reread : members.reread? levels = some read) {kind : String}
    (isKind : members.get? "type" = some (.string kind)) :
    ofMembers read = ofMembers members ↔ ∀ real ∈ (kept members).reals, real.ReadsBack := by
  have isKindAgain : read.get? "type" = some (.string kind) := by
    rcases exists_get?_of_reread? reread isKind with ⟨again, isReread, foundAgain⟩
    cases isReread
    exact foundAgain
  by_cases supported : kind ∈ supportedTypes
  · simp only [supportedTypes, List.mem_cons, List.not_mem_nil, or_false] at supported
    rcases supported with isPing | isEcho | isBroadcast | isStats
    · subst isPing
      rw [kept, ofMembers_of_ping isKind, ofMembers_of_ping isKindAgain, Request.ping.injEq,
        Json.object.injEq, members_eq_iff shallow reread]
      rfl
    · subst isEcho
      rw [kept, ofMembers_of_echo isKind, ofMembers_of_echo isKindAgain, Request.echo.injEq,
        messageOf_eq_iff shallow reread]
    · subst isBroadcast
      rw [kept, ofMembers_of_broadcast isKind, ofMembers_of_broadcast isKindAgain,
        Request.broadcast.injEq, messageOf_eq_iff shallow reread]
    · subst isStats
      rw [kept, ofMembers_of_stats isKind, ofMembers_of_stats isKindAgain]
      simp [Json.reals]
  · have isUnknown := ofMembers_eq_unknown_iff.mpr ⟨typeOf_of_string isKind, supported⟩
    have isUnknownAgain := ofMembers_eq_unknown_iff.mpr
      ⟨typeOf_of_string isKindAgain, supported⟩
    rw [kept, isUnknown, isUnknownAgain, isKind]
    simp [Json.reals]

/-- What a request keeps comes back exactly if all its binary numbers do. -/
theorem ofMembers_reread_iff (shallow : members.depth ≤ levels)
    (reread : members.reread? levels = some read) :
    ofMembers read = ofMembers members ↔ ∀ real ∈ (kept members).reals, real.ReadsBack := by
  cases found : members.get? "type" with
  | none =>
      have typeless : ∀ {others : Members}, others.get? "type" = none →
          ofMembers others = .unknown missingType := by
        intro others absent
        refine ofMembers_eq_unknown_iff.mpr ⟨?_, by decide⟩
        rw [typeOf, absent]
      rw [kept, typeless found, typeless (get?_eq_none_of_reread? reread found), found]
      simp [Json.reals]
  | some value =>
      by_cases isString : value.kind = "string"
      · have isKind : ∃ kind, value = .string kind := by
          cases value with
          | string kind => exact ⟨kind, rfl⟩
          | null | boolean _ | number _ | array _ | object _ => simp [Json.kind] at isString
        rcases isKind with ⟨kind, same⟩
        subst same
        exact ofMembers_reread_of_string shallow reread found
      · rcases exists_get?_of_reread? reread found with ⟨again, isReread, foundAgain⟩
        have noString : again.kind ≠ "string" := by
          rw [Json.kind_of_reread? isReread]
          exact isString
        have unknown : ∀ {others : Members} {other : Json}, others.get? "type" = some other →
            other.kind ≠ "string" → ofMembers others = .unknown other.render := by
          intro others other isType isOther
          exact ofMembers_eq_unknown_iff.mpr
            ⟨typeOf_of_other isType isOther, render_not_mem_supportedTypes other⟩
        have inside : value.depth ≤ levels :=
          Nat.le_trans (Members.depth_le_of_get? found) shallow
        rw [kept, unknown found isString, unknown foundAgain noString, Request.unknown.injEq,
          Json.render_injective.eq_iff, found]
        exact Json.eq_of_reread?_iff inside isReread

end Reread

end Request

namespace Hub

/-- Frames are told apart by what they say. Whoever spells an accepted frame in another way,
with other blanks or escapes, with the members of any object in another order, or with members
that later ones override, is understood as the same request, gets the same answer, and leaves
the same queues and the same count behind. The text of the object that was read is accepted
again. It is understood as the same request exactly if the binary numbers in the part that the
request keeps are read back from their texts. -/
theorem dispatch_ignores_spelling {frame : String} {request : Request}
    (accepted : Request.decode frame = .ok request) :
    ∃ (entries : Entries) (members : Members),
      (∀ phrase, IsText phrase frame.toList ↔ phrase = .object entries) ∧
        Request.Holds frame members ∧
        (∀ (spelling : String) (phrase : Phrase) (read : Request),
          IsText phrase spelling.toList → phrase.content = (Phrase.object entries).content →
            Request.decode spelling = .ok read →
              read = request ∧ ∀ (hub : Hub) (moment : Moment) (sender : Connection),
                hub.route moment sender (.text spelling) =
                    hub.route moment sender (.text frame) ∧
                  hub.dispatch moment sender (.text spelling) =
                    hub.dispatch moment sender (.text frame)) ∧
        ∃ read, Request.decode (Json.object members).render = .ok read ∧
          (read = request ↔ ∀ real ∈ (Request.kept members).reals, real.ReadsBack) := by
  rcases Request.exists_entries_of_decode accepted
    with ⟨entries, values, derived, _, holds, isRequest⟩
  rcases Request.exists_decode_render holds with ⟨read, reread, decoded⟩
  refine ⟨entries, values.normalizeInto .nil, fun phrase => ⟨fun other => other.unique derived,
    ?_⟩, holds, ?_, Request.ofMembers read, decoded, ?_⟩
  · intro same
    rw [same]
    exact derived
  · intro spelling phrase other otherDerived same otherAccepted
    have sameRequest := Request.decode_of_content otherDerived derived same otherAccepted accepted
    have alike : (Message.text spelling).request = (Message.text frame).request := by
      change Request.decode spelling = Request.decode frame
      rw [otherAccepted, accepted, sameRequest]
    exact ⟨sameRequest, fun hub moment sender =>
      ⟨hub.route_of_request alike moment sender, hub.dispatch_of_request alike moment sender⟩⟩
  · rw [isRequest]
    exact Request.ofMembers_reread_iff holds.depth_le reread

/-- Members in another order and one that is overridden, behind a blank. -/
theorem dispatch_ignores_spelling_reordered :
    let frame := "\x7b\"type\":\"ping\",\"a\":\x7b\"y\":[],\"x\":0.5\x7d\x7d"
    let spelling :=
      " \x7b\"a\":\x7b\"x\":null,\"y\":[],\"x\":0.5\x7d,\"type\":\"ping\"\x7d"
    let members : Members := .ofList [("a", .object (.ofList
      [("x", .number (.real ⟨false, 0x3fe0000000000000, by decide⟩)), ("y", .array .nil)])),
      ("type", .string "ping")]
    Request.decode frame = .ok (.ping (.object members)) ∧
      Request.decode spelling = .ok (.ping (.object members)) ∧
      Request.decode (Json.object members).render = .ok (.ping (.object members)) ∧
      ∀ (hub : Hub) (moment : Moment) (sender : Connection),
        hub.dispatch moment sender (.text spelling) =
          hub.dispatch moment sender (.text frame) := by
  intro frame spelling members
  let half : Literal := ⟨false, ['0'], some ['5'], none⟩
  let inner : Entries := .cons "y" (.array .nil) (.cons "x" (.number half) .nil)
  let written : Entries := .cons "type" (.string "ping") (.cons "a" (.object inner) .nil)
  let rewritten : Entries := .cons "a" (.object (.cons "x" .null inner))
    (.cons "type" (.string "ping") .nil)
  have wellFormed : half.IsWellFormed := by
    have read : readLiteral "0.5".toList = some (half, []) := by decide +kernel
    exact (readLiteral_recognizes.sound read).isWellFormed
  have derived : IsText (.object written) frame.toList := by
    have isText : frame.toList = (Phrase.object written).text := by decide +kernel
    rw [isText]
    apply Phrase.isText_text
    intro literal member
    exact List.mem_singleton.mp member ▸ wellFormed
  have otherDerived : IsText (.object rewritten) spelling.toList := by
    have isText : spelling.toList = ' ' :: (Phrase.object rewritten).text := by decide +kernel
    have compact : IsText (.object rewritten) (Phrase.object rewritten).text := by
      apply Phrase.isText_text
      intro literal member
      exact List.mem_singleton.mp member ▸ wellFormed
    rcases compact with ⟨stop, ⟨blanks, value⟩, after⟩
    rw [isText]
    exact ⟨stop, .blanks (.more (by decide) blanks) value, after⟩
  have same : (Phrase.object rewritten).content = (Phrase.object written).content := by
    rw [Phrase.content, Phrase.content, Entries.contentOf_swap (by decide)]
    congr 1
    apply Entries.contentOf_cons rfl
    apply Entries.contentOf_cons _ rfl
    rw [Phrase.content, Phrase.content, Entries.contentOf_overridden (by decide)]
  have accepted : Request.decode frame = .ok (.ping (.object members)) := by decide +kernel
  have otherAccepted : Request.decode spelling = .ok (.ping (.object members)) := by
    decide +kernel
  have readBack : ∀ real ∈ (Json.object members).reals, real.ReadsBack := by decide +kernel
  rcases dispatch_ignores_spelling accepted
    with ⟨entries, others, isText, holds, spelled, read, decoded, unchanged⟩
  have isEntries : Phrase.object entries = .object written := ((isText _).mp derived).symm
  have alike := (spelled spelling (.object rewritten) _ otherDerived (isEntries ▸ same)
    otherAccepted).2
  have holdsMembers : Request.Holds frame members :=
    ⟨.object (.ofList [("type", .string "ping"), ("a", .object (.ofList [("y", .array .nil),
      ("x", .number (.real ⟨false, 0x3fe0000000000000, by decide⟩))]))]), by decide +kernel,
      by decide +kernel⟩
  have sameMembers : others = members := holds.unique holdsMembers
  have isKept : Request.kept members = .object members := by decide +kernel
  rw [sameMembers, isKept] at unchanged
  rw [sameMembers, unchanged.mpr readBack] at decoded
  exact ⟨accepted, otherAccepted, decoded, fun hub moment sender => (alike hub moment sender).2⟩

/-- A binary number whose shortest text is read as its neighbour. -/
theorem decode_render_changes_number :
    let frame := "\x7b\"type\":\"ping\",\"message\":123456789012345680000\x7d"
    let number (rank : Nat) (finite : rank < Double.rankBound) : Json :=
      .number (.real ⟨false, rank, finite⟩)
    let members (message : Json) : Members :=
      .ofList [("message", message), ("type", .string "ping")]
    let sent := members (number 0x441ac53a7e04bcd9 (by decide))
    let reread := members (number 0x441ac53a7e04bcda (by decide))
    Request.Holds frame sent ∧
      (Json.object sent).render =
        "\x7b\"message\":1.2345678901234567e+20,\"type\":\"ping\"\x7d" ∧
      Request.decode frame = .ok (.ping (.object sent)) ∧
      Request.decode (Json.object sent).render = .ok (.ping (.object reread)) ∧
      Request.decode (Json.object sent).render ≠ Request.decode frame := by
  intro frame number members sent reread
  have holds : Request.Holds frame sent :=
    ⟨.object (.ofList [("type", .string "ping"),
      ("message", number 0x441ac53a7e04bcd9 (by decide))]), by decide +kernel, by decide +kernel⟩
  have isPing : Request.decode frame = .ok (.ping (.object sent)) := by decide +kernel
  have isOther : Request.decode (Json.object sent).render = .ok (.ping (.object reread)) := by
    decide +kernel
  refine ⟨holds, by decide +kernel, isPing, isOther, ?_⟩
  rw [isPing, isOther]
  decide +kernel

end Hub

end Relay
