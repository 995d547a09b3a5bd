import Webtrans.Data.Arrival
import Webtrans.Proto.ConnectResponse
import Webtrans.Proto.Readers
import Webtrans.Proto.Settings.Negotiation

namespace Webtrans.Proto

open Webtrans.Data

/-! The messages of the handshake while they arrive on a stream
(`settings.rs`, `connect.rs` and `capsule.rs` of `webtrans-proto/src`). -/

theorem VarInt.read_incremental {ι : Type} (eof : ι) : Incremental (VarInt.read eof) := by
  intro stream
  have taken : ∀ {bytes rest : List UInt8} {value : VarInt}, VarInt.decode.Reads bytes value →
      stream.bytes = bytes ++ rest → ∀ chunk ending, VarInt.read eof (stream.continued chunk ending) =
        .done value ((stream.advance bytes.length).continued chunk ending) := by
    intro bytes rest value reads split chunk ending
    have inside : bytes.length ≤ stream.bytes.length := by
      rw [split, List.length_append]
      omega
    have split' : (stream.continued chunk ending).bytes = bytes ++ (rest ++ chunk) := by
      rw [ByteStream.bytes_continued, split, List.append_assoc]
    rw [VarInt.read_reads eof reads split', ByteStream.advance_continued inside]
  constructor
  · intro value after returned
    obtain ⟨bytes, rest, reads, split, rfl⟩ := VarInt.reads_of_read returned
    refine ⟨rfl, ?_, taken reads split⟩
    rw [ByteStream.bytes_advance, List.length_drop]
    omega
  · intro waiting finished chunk ending
    have equation := VarInt.read_eq eof stream
    cases decoded : VarInt.decode stream.bytes with
    | error error =>
        rw [decoded, waiting] at equation
        exact absurd equation finished
    | ok result =>
        obtain ⟨value, rest⟩ := result
        obtain ⟨bytes, split, reads⟩ := VarInt.decode_local decoded
        rw [taken reads split, VarInt.read_reads eof reads split]
        rfl
  · intro ends pending
    rw [VarInt.read_eq] at pending
    cases decoded : VarInt.decode stream.bytes with
    | ok result =>
        rw [decoded] at pending
        cases pending
    | error error =>
        rw [decoded] at pending
        cases ending : stream.ending with
        | waiting => exact ends ending
        | _ =>
            rw [ending] at pending
            cases pending
  · exact VarInt.read_ne_panicked eof stream

section Readers

variable {ε α : Type} (errors : RecordErrors ε) (limit : Nat)

theorem readRecord_incremental : Incremental (readRecord errors limit) := by
  apply Incremental.bind (VarInt.read_incremental _)
  intro typ
  apply Incremental.bind (VarInt.read_incremental _)
  intro length stream
  apply Decides.ite
  · intro _
    exact Decides.fail _
  · intro _
    apply Decides.bind (Decides.readExact _ _)
    intro payload after _
    exact Decides.return_ _

/-- Behind a GREASE record the loop reads on, on a shorter stream. -/
theorem readFrame_incremental : Incremental (readFrame errors limit) := by
  intro stream
  induction size : stream.bytes.length using Nat.strong_induction_on generalizing stream with
  | h size ih =>
      subst size
      rw [funext (readFrame_eq errors limit)]
      apply Decides.bind (readRecord_incremental errors limit stream)
      intro record after read
      apply Decides.ite
      · intro _
        exact ih _ (readRecord_shrinks read) after rfl
      · intro _
        exact Decides.return_ _

theorem recordBytes_incremental (record : VarInt × List UInt8) : Incremental (recordBytes errors record) := by
  cases length : VarInt.fromU64 record.2.length with
  | none =>
      have fails : recordBytes errors record = fun _ => .failed errors.messageTooLong := by
        funext stream
        rw [recordBytes, length]
      rw [fails]
      exact fun _ => Decides.fail _
  | some length' =>
      have returns : recordBytes errors record =
          fun stream => .done (record.1.encode ++ length'.encode ++ record.2) stream := by
        funext stream
        rw [recordBytes, length]
      rw [returns]
      exact fun _ => Decides.return_ _

theorem decodeRead_incremental {reader : ByteStream IoError → Read IoError ε (List UInt8)}
    (incremental : Incremental reader) (decode : Parser ε α) :
    Incremental fun stream => decodeRead (reader stream) decode := by
  apply Incremental.bind incremental
  intro bytes
  cases decode bytes with
  | error error => exact fun _ => Decides.fail _
  | ok result => exact fun _ => Decides.return_ _

theorem readShortest_incremental : Incremental (readShortest errors limit) := by
  apply Incremental.bind (readFrame_incremental errors limit)
  intro frame
  exact recordBytes_incremental errors _

end Readers

theorem Settings.read_incremental : Incremental Settings.read := by
  apply Incremental.bind (VarInt.read_incremental _)
  intro streamType stream
  apply Decides.ite
  · intro _
    exact Decides.fail _
  · intro _
    exact decodeRead_incremental (readShortest_incremental _ _) _ stream

theorem Capsule.read_incremental : Incremental Capsule.read := by
  apply decodeRead_incremental
  apply Incremental.bind (readRecord_incremental _ _)
  intro record
  exact recordBytes_incremental _ _

section Connect

variable (url : UrlCrate) (http : HttpCrate) (iterate : ∀ headers : Qpack.Headers, headers.Iteration)

theorem ConnectRequest.read_incremental : Incremental (ConnectRequest.read url http iterate) :=
  decodeRead_incremental (readShortest_incremental _ _) _

theorem ConnectResponse.read_incremental : Incremental (ConnectResponse.read url http iterate) :=
  decodeRead_incremental (readShortest_incremental _ _) _

end Connect

theorem readFramed_receives {ε α : Type} {errors : RecordErrors ε} {limit : Nat} {decode : Parser ε α}
    {body : Frame → List UInt8 → Except ε α} {typ : VarInt} {payload : List UInt8} {value : α}
    (decoder : FrameDecoder decode body) (bound : payload.length < 2 ^ 62)
    (ordinary : isGreaseValue typ.intoInner = false) (fits : payload.length ≤ limit)
    (accepted : body ⟨typ⟩ payload = .ok value) :
    Receives (readFramed errors limit decode) (Tlv.shortest typ payload bound).bytes value := by
  intro stream rest split
  have run := @readFramed_run _ errors limit stream _ decode body decoder
    (FrameRun.only (Tlv.shortest typ payload bound) ordinary) rest split (FrameRun.within_only.mpr fits)
  have same : body ⟨(FrameRun.only (Tlv.shortest typ payload bound) ordinary).frame.typ⟩
      (FrameRun.only (Tlv.shortest typ payload bound) ordinary).frame.payload = .ok value := accepted
  rw [same] at run
  exact run

theorem encodeHeadersFrame_eq {headers : Qpack.Headers} {iteration : headers.Iteration}
    (short : (headers.encode iteration).length < 2 ^ 32) :
    encodeHeadersFrame headers iteration =
      (Tlv.shortest Frame.headers.typ (headers.encode iteration)
        (Nat.lt_trans short (by decide))).bytes := by
  have length : VarInt.fromU32 (UInt32.ofNat (headers.encode iteration).length) =
      ⟨(headers.encode iteration).length, Nat.lt_trans short (by decide)⟩ := by
    apply VarInt.ext
    exact UInt32.toNat_ofNat'.trans (Nat.mod_eq_of_lt short)
  rw [encodeHeadersFrame, length]
  rfl

theorem Settings.receives {settings : Settings} (boolean : settings.Boolean) (iteration : settings.Iteration)
    (fits : Settings.payloadLen iteration ≤ maxSettingsFrameSize) :
    Receives Settings.read (Settings.controlStream iteration).bytes settings.withoutGrease :=
  fun _ _ split => Settings.read_controlStream boolean iteration fits split

namespace Settings

open Setting

/-- What `enable_webtransport(1)` makes of the default settings. -/
def enabledEntries : List SettingEntry :=
  [⟨webtransportEnableDeprecated, VarInt.fromU32 1⟩, ⟨webtransportMaxSessionsDeprecated, VarInt.fromU32 1⟩,
    ⟨webtransportMaxSessions, VarInt.fromU32 1⟩, ⟨wtEnabled, VarInt.fromU32 1⟩,
    ⟨enableDatagramDeprecated, VarInt.fromU32 1⟩, ⟨enableDatagram, VarInt.fromU32 1⟩,
    ⟨enableConnectProtocol, VarInt.fromU32 1⟩]

theorem enabled_entries :
    ((∅ : Settings).enableWebtransport 1).entries = (enabledEntries : Multiset SettingEntry) := by
  decide +kernel

theorem enabledEntries_allocated : enabledEntries.length < 2 ^ 58 := by
  decide

theorem payloadLen_enabled (iteration : ((∅ : Settings).enableWebtransport 1).Iteration) :
    payloadLen iteration ≤ maxSettingsFrameSize := by
  have order : iteration.order.Perm enabledEntries :=
    Multiset.coe_eq_coe.mp (iteration.entries.trans enabled_entries)
  rw [payloadLen, (order.map fun entry => entry.1.size + entry.2.size).sum_eq]
  decide

theorem supports_enabled :
    ((∅ : Settings).enableWebtransport 1).withoutGrease.supportsWebtransportServer = true ∧
      ((∅ : Settings).enableWebtransport 1).withoutGrease.supportsWebtransportClient = true := by
  have kept : ∀ {id : Setting}, id.isGrease = false →
      ((∅ : Settings).enableWebtransport 1).withoutGrease.lookup id =
        ((EnableCall.compatible 1).apply ∅).lookup id :=
    fun ordinary => lookup_withoutGrease _ ordinary
  have flags := supports_of_flags ((kept (by decide)).trans (lookup_wtEnabled _ _))
    ((kept (by decide)).trans (lookup_enableDatagram _ _))
    ((kept (by decide)).trans (lookup_enableConnectProtocol _ _))
  exact ⟨flags.1, flags.2.1⟩

theorem enabled_receives (iteration : ((∅ : Settings).enableWebtransport 1).Iteration) :
    Receives Settings.read (controlStream iteration).bytes
      ((∅ : Settings).enableWebtransport 1).withoutGrease :=
  receives (boolean_apply ∅ (.compatible 1)) iteration (payloadLen_enabled iteration)

end Settings

theorem ConnectRequest.receives {url : ClientUrlCrate} {http : HttpCrate}
    {request : ConnectRequest url.toUrlCrate} (lawful : url.Lawful)
    (connects : http.tryFrom "CONNECT" = some http.connect)
    (valid : validateUrl url request.url = .ok ()) (iterate : ∀ headers : Qpack.Headers, headers.Iteration)
    {iteration : request.headers.Iteration}
    (fits : (request.headers.encode iteration).length ≤ maxConnectFrameSize) :
    Receives (ConnectRequest.read url.toUrlCrate http iterate) (request.encode iteration) request := by
  have short : (request.headers.encode iteration).length < 2 ^ 32 := Nat.lt_of_le_of_lt fits (by decide)
  have sized : request.headers.Sized := Qpack.Headers.sized_of_encode (Nat.lt_trans short (by decide))
  have decoded := Qpack.Headers.decode_encode_of_valid (headers_valid lawful valid) sized iteration
  rw [encode, encodeHeadersFrame_eq short]
  refine readFramed_receives (frameDecoder iterate) _ (by decide) fits ?_
  rw [headersBody, if_neg (by simp), decoded]
  exact ofHeaders_headers lawful valid connects iterate

theorem ConnectResponse.receives {url : UrlCrate} {http : StatusCrate} {response : ConnectResponse http.toHttpCrate}
    (lawful : http.Lawful) (iterate : ∀ headers : Qpack.Headers, headers.Iteration)
    (iteration : response.headers.Iteration) :
    Receives (ConnectResponse.read url http.toHttpCrate iterate) (response.encode iteration) response := by
  have small := payload_length_le lawful iteration
  have short : (response.headers.encode iteration).length < 2 ^ 32 := by omega
  rw [encode, encodeHeadersFrame_eq short]
  refine readFramed_receives (frameDecoder iterate) _ (by decide) ?_ (body_headers lawful iterate iteration)
  exact Nat.le_trans small (by decide)

theorem Capsule.receives {capsule : Capsule} (canonical : capsule.Canonical) {bytes : List UInt8}
    (encoded : capsule.encode [] = (.ok (), bytes)) : Receives Capsule.read bytes capsule := by
  obtain ⟨fits, bound, rfl⟩ := encode_ok encoded
  intro stream rest split
  rw [List.nil_append] at split ⊢
  rw [read_tlv split fits]
  have decoded := decodePayload_payload canonical fits
  rw [show (Tlv.shortest capsule.typ capsule.payload bound).typ = capsule.typ from rfl,
    show (Tlv.shortest capsule.typ capsule.payload bound).payload = capsule.payload from rfl, decoded]

/-- Settings, CONNECT requests and responses and capsules are read exactly when
they have arrived in full, in whatever parts. -/
theorem messages_arrive {url : ClientUrlCrate} {http : StatusCrate} (urls : url.Lawful) (statuses : http.Lawful)
    (iterate : ∀ headers : Qpack.Headers, headers.Iteration) :
    (∀ (settings : Settings) (iteration : settings.Iteration), settings.Boolean →
      Settings.payloadLen iteration ≤ maxSettingsFrameSize →
      ∃ bytes, Settings.encode iteration = some bytes ∧
        Delivers Settings.read bytes settings.withoutGrease) ∧
    (∀ (request : ConnectRequest url.toUrlCrate) (iteration : request.headers.Iteration),
      validateUrl url request.url = .ok () →
      (request.headers.encode iteration).length ≤ maxConnectFrameSize →
      Delivers (ConnectRequest.read url.toUrlCrate http.toHttpCrate iterate) (request.encode iteration)
        request) ∧
    (∀ (response : ConnectResponse http.toHttpCrate) (iteration : response.headers.Iteration),
      Delivers (ConnectResponse.read url.toUrlCrate http.toHttpCrate iterate) (response.encode iteration)
        response) ∧
    ∀ (capsule : Capsule) (bytes : List UInt8), capsule.Canonical → capsule.encode [] = (.ok (), bytes) →
      Delivers Capsule.read bytes capsule := by
  refine ⟨?_, ?_, ?_, ?_⟩
  · intro settings iteration boolean fits
    exact ⟨_, Settings.encode_eq iteration,
      (Settings.receives boolean iteration fits).delivers Settings.read_incremental⟩
  · intro request iteration valid fits
    exact (ConnectRequest.receives urls statuses.tryFrom_connect valid iterate fits).delivers
      (ConnectRequest.read_incremental _ _ iterate)
  · intro response iteration
    exact (ConnectResponse.receives statuses iterate iteration).delivers
      (ConnectResponse.read_incremental _ _ iterate)
  · intro capsule bytes canonical encoded
    exact (Capsule.receives canonical encoded).delivers Capsule.read_incremental

theorem messages_arrive_room :
    let iterate : ∀ headers : Qpack.Headers, headers.Iteration := fun headers =>
      ⟨headers.fields.entries.toList, headers.fields.entries.coe_toList⟩
    (∃ bytes, Settings.encode Settings.sampleIteration = some bytes ∧
      Delivers Settings.read bytes (Settings.enabled ∅ [] (.latest 1)).withoutGrease) ∧
    Delivers (ConnectRequest.read ConnectRequest.roomUrls.toUrlCrate
      ConnectResponse.sampleStatuses.toHttpCrate iterate)
      (ConnectRequest.roomRequest.encode ConnectRequest.roomIteration) ConnectRequest.roomRequest ∧
    Delivers (ConnectResponse.read ConnectRequest.roomUrls.toUrlCrate
      ConnectResponse.sampleStatuses.toHttpCrate iterate)
      (ConnectResponse.forbiddenResponse.encode (ConnectResponse.iteration _))
      ConnectResponse.forbiddenResponse ∧
    Delivers Capsule.read [0x68, 0x43, 0x04, 0x00, 0x00, 0x00, 0x07] (.closeWebTransportSession 7 "") := by
  intro iterate
  obtain ⟨settings, requests, responses, capsules⟩ :=
    messages_arrive ConnectRequest.roomUrls_lawful ConnectResponse.sampleStatuses_lawful iterate
  refine ⟨?_, ?_, responses _ _, ?_⟩
  · exact settings _ Settings.sampleIteration (Settings.boolean_apply ∅ (.latest 1)) (by decide)
  · exact requests ConnectRequest.roomRequest ConnectRequest.roomIteration (by decide +kernel) (by decide +kernel)
  · exact capsules _ _ trivial (by decide +kernel)

end Webtrans.Proto
