import TagStore.Proofs.Client.ReplyLines
import TagStore.Proofs.Node.Keeping
import TagStore.Proofs.Payload

/-!
# What a client is answered

A node that keeps a catalog answers a client as the catalog says, and keeps what the catalog is
afterwards (`Operation.exists_answered`). On the way there, what the client writes becomes what the
node keeps (`Profile.Admits.write`), the lines of the node are those that the client knows how to
read (`Master.done_eq`, `Master.failed_eq`), and what the node finds under a key is read as what the
catalog has there (`Master.gives_found`).
-/

namespace TagStore

open Wire Reader

variable {σ α : Type} {src : Source σ} {Due : Bytes → σ → Prop} {p : Profile} {m : Master}
  {c : Catalog} {key : String}

/-! ## What is written -/

namespace Master

theorem tagsOf_list (tags : List String) :
    tagsOf (Field.list tags .base64).bytes = tags.map Encoding.base64.encode := by
  obtain ⟨⟨habsent, hsplit⟩, -⟩ := Entry.fits_tags ⟨.raw, .standard, none⟩ tags
  rw [tagsOf]
  split
  · rename_i h
    rw [habsent.1 h]
    rfl
  · rename_i h
    exact hsplit fun hnil => h (habsent.2 hnil)

end Master

/-- Whether a codec writes every text: objects are written with their mark, and values are
compressed only by compressors that there are. -/
structure PayloadCodec.Able (codec : PayloadCodec) : Prop where
  objects : codec.objects = .json
  strategy : ∀ key n id, codec.strategy.select key n = some id →
    (codec.compressors.get? id).isSome

namespace PayloadCodec.Able

variable {codec : PayloadCodec} {s : String} {form : Bytes}

theorem exists_plain (h : codec.Able) (s : String) : ∃ form, codec.plain (.text s) = .ok form := by
  rw [plain]
  split
  · refine ⟨ObjectCodec.magic ++ Bytes.ofString (Json.string s).render, ?_⟩
    rw [encodeObject, h.objects]
    exact if_pos (List.isPrefixOf_iff_prefix.2 (List.prefix_append _ _))
  · exact ⟨_, rfl⟩

/-- A text that a reader takes is written. -/
theorem exists_encode (h : codec.Able) (hform : codec.plain (.text s) = .ok form)
    (hsize : form.length ≤ Frame.maxSize) (key : String) :
    ∃ b, codec.encode key (.text s) = .ok b := by
  rw [encode, encodeWith, hform]
  simp only
  split
  · exact ⟨form, rfl⟩
  · rename_i id hid
    obtain ⟨compressor, hc⟩ := Option.isSome_iff_exists.1 (h.strategy key form.length id hid)
    rw [CompressorRegistry.compress_of_get? hc (hsize.trans (by decide))]
    exact ⟨_, rfl⟩

end PayloadCodec.Able

/-- Whether a client sends every value that it can write. -/
structure Profile.Ready (p : Profile) : Prop where
  payload : p.payload.Able
  unlimited : p.maxValueSize = none

/-- **What is admitted is sent, and what is sent shows.** -/
theorem Profile.Admits.write {value : Option Value} {options : StoreOptions}
    (h : p.Admits key value options) (hp : p.Ready) :
    ∃ s payload, value = some (.text s) ∧
      (Field.blob payload).bytes.length ≤ Master.maxValueSize ∧
      (∀ op version, p.write op key value version options =
        .ok ⟨op, [.text (some key) p.keys, .list options.tags .base64, .number 0, .blob payload] ++
          (version.map fun v => .text (some v) .raw).toList ++
            [.number options.expireSecs, .empty]⟩) ∧
      ∀ n, Master.Shows p key
        ⟨(Field.blob payload).bytes, n, Master.tagsOf (Field.list options.tags .base64).bytes⟩
        ⟨s, n, options.tags⟩ := by
  obtain ⟨s, rfl, hwithin⟩ := h.value
  obtain ⟨form, hform⟩ := hp.payload.exists_plain s
  have hplain := hwithin.readable form hform
  obtain ⟨payload, hpayload⟩ := hp.payload.exists_encode hform hplain key
  have hsize := hwithin.storable payload hpayload
  refine ⟨s, payload, rfl, hsize, fun op version => ?_, fun n => ?_⟩
  · have hchecked : p.checkSize payload = .ok () := by rw [checkSize, hp.unlimited]
    rw [Profile.write_of_checks h.checked h.tags hpayload, hchecked]
    rfl
  · exact {
      version := rfl
      tags := Master.tagsOf_list options.tags
      value :=
        PayloadCodec.value_encode (v := .text s) hp.payload.objects trivial hform hplain hpayload
      contained := contained_base64 payload
      short := hsize
      found := h.found }

/-! ## What is stored -/

namespace Master

variable {op : Opcode} {k value : Bytes}

theorem write_of_le (m : Master) (tags : Bytes) (hsize : value.length ≤ maxValueSize)
    (h : ¬(op = .add ∧ k ∈ m.store)) :
    m.write op k tags value = (done op [Bytes.ofString "OK"], m.put k tags value) := by
  rw [write, if_neg (Nat.not_lt.2 hsize), if_neg h]

theorem write_of_mem (m : Master) (tags : Bytes) (hsize : value.length ≤ maxValueSize)
    (h : k ∈ m.store) :
    m.write .add k tags value = (failed .add "NG:Data has already created", m) := by
  rw [write, if_neg (Nat.not_lt.2 hsize), if_pos ⟨rfl, h⟩]

/-- A value takes the place of one of a version where the version is current. -/
theorem Keeps.replace_eq (h : m.Keeps p c) (key token : String) (tags value : Bytes) :
    m.replace (p.keys.encode key) tags value (Bytes.ofString token) =
      if c.isCurrent key token then
        (done .setVersioned [Bytes.ofString "OK"], m.put (p.keys.encode key) tags value)
      else (failed .setVersioned "NG:Data has already been updated", m) := by
  have hcurrent : ((m.store[p.keys.encode key]?).any fun e =>
      digits e.version.toNat = Bytes.ofString token) = c.isCurrent key token := by
    rw [Catalog.isCurrent]
    rcases h.cases_entry key with ⟨hx, hi⟩ | ⟨e, i, hx, hi, hshows⟩
    · rw [hx, hi]
      rfl
    · rw [hx, hi, Option.any_some, Option.any_some, hshows.version, digits_eq]
      exact decide_eq_decide.2 (Encoding.encode_inj (e := .raw))
  rw [replace, hcurrent]

/-! ## Lines -/

theorem done_eq (op : Opcode) (f : Bytes) (fs : List Bytes) :
    done op (f :: fs) =
      Replying.opening op statusOk ++ (joinWith fieldSeparator (f :: fs) ++ [lineEnd]) := by
  simp [done, line, Replying.opening, joinWith]

theorem failed_eq (op : Opcode) (text : String) :
    failed op text =
      Replying.opening op statusFailed ++ (Bytes.ofString text ++ [lineEnd]) := by
  simp [failed, line, Replying.opening, joinWith]

theorem closing_eq : closing = Wire.endLine := rfl

/-- A report of success that brings nothing. -/
theorem gives_done (hs : src.Supplies Due) (op : Opcode) (a : α)
    (complaint : String → Except ClientError α) :
    Gives Due (Replying.single src op (pure a) complaint) (done op [Bytes.ofString "OK"]) true
      (.ok a) [] true := by
  rw [done_eq]
  exact Replying.gives_single hs (gives_pure _ _ _) (Reading.gives_finish hs (by decide))

/-- A complaint. -/
theorem gives_failed (hs : src.Supplies Due) (op : Opcode) (success : Reading σ α)
    (complaint : String → Except ClientError α) {text : String} (h : Replying.Plaintext text) :
    Gives Due (Replying.single src op success complaint) (failed op text) true (complaint text) []
      true := by
  rw [failed_eq]
  exact Replying.gives_complaint hs h

/-! ## What is found -/

/-- A value at the end of its line. -/
theorem Shows.gives_value (hs : src.Supplies Due) {e : Stored} {i : Item} (h : Shows p key e i)
    (rest : Bytes) (l : Bool) :
    Gives Due (Reading.value src p.payload) (e.value ++ lineEnd :: rest) l
      (.ok (some (.text i.text))) rest true := by
  rw [← h.value]
  exact Reading.gives_parsed_last hs _ h.contained.1 h.contained.2
    (h.short.trans (by decide))

/-- A version is a text like any other. -/
theorem plaintext_version (v : UInt64) : Replying.Plaintext (toString v) := by
  have hdigits : Bytes.ofString (toString v) = digits v.toNat := (digits_eq v.toNat).symm
  refine ⟨?_, ?_, ?_⟩ <;> rw [hdigits]
  · exact contained_digits _
  · exact (length_digits (Nat.le_of_lt_succ v.toNat_lt)).trans (by decide)
  · intro h
    have hmem : (40 : UInt8) ∈ digits v.toNat := by rw [h]; decide
    exact absurd (mem_digits hmem) (by decide)

/-- A value and its version. -/
theorem Shows.gives_versioned (hs : src.Supplies Due) {e : Stored} {i : Item}
    (h : Shows p key e i) (rest : Bytes) (l : Bool) :
    Gives Due (Replying.versioned p.payload src)
      (joinWith fieldSeparator [e.value, digits e.version.toNat] ++ lineEnd :: rest) l
      (.ok (some ⟨.text i.text, toString i.version⟩)) rest true := by
  have hfields : joinWith fieldSeparator [e.value, digits e.version.toNat] ++ lineEnd :: rest =
      e.value ++ fieldSeparator :: (Bytes.ofString (toString i.version) ++ lineEnd :: rest) := by
    simp [joinWith, h.version, digits_eq]
    rfl
  have hvalue : Gives Due (Reading.value src p.payload)
      (e.value ++ fieldSeparator :: (Bytes.ofString (toString i.version) ++ lineEnd :: rest)) l
      (Wire.value p.payload e.value) (Bytes.ofString (toString i.version) ++ lineEnd :: rest)
      false :=
    Reading.gives_parsed hs _ h.contained.1 h.contained.2 (h.short.trans (by decide))
  rw [h.value] at hvalue
  rw [hfields]
  refine hvalue.bind ?_
  exact (Replying.gives_text hs (plaintext_version i.version)).bind (gives_pure _ _ _)

/-- **What a node finds under a key is read as what a catalog has there.** -/
theorem gives_found (hs : src.Supplies Due) {op : Opcode} {success : Reading σ (Option α)}
    {fields : Stored → List Bytes} {f : Item → α} {x : Option Stored} {i? : Option Item}
    (hx : Option.Rel (Shows p key) x i?) (hne : ∀ e, fields e ≠ [])
    (h : ∀ e i, Shows p key e i → Gives Due success
      (joinWith fieldSeparator (fields e) ++ [lineEnd]) false (.ok (some (f i))) [] true) :
    Gives Due (Replying.single src op success (Replying.absentOr none)) (found op fields x) true
      (.ok (i?.map f)) [] true := by
  cases hx with
  | none => exact gives_failed hs op success _ Replying.plaintext_empty
  | @some e i he =>
    obtain ⟨b, bs, hb⟩ := List.exists_cons_of_ne_nil (hne e)
    have hsuccess := h e i he
    rw [found, hb, done_eq, ← hb]
    exact Replying.gives_single hs hsuccess (Reading.gives_finish_done src _)

/-- A value that is found is read as the text there. -/
theorem gives_found_value (hs : src.Supplies Due) (op : Opcode) {x : Option Stored}
    {i? : Option Item} (hx : Option.Rel (Shows p key) x i?) :
    Gives Due (Replying.single src op (Reading.value src p.payload) (Replying.absentOr none))
      (found op (fun e => [e.value]) x) true (.ok (i?.map fun i => .text i.text)) [] true :=
  gives_found hs hx (fun _ => List.cons_ne_nil _ _) fun e i he => by
    simpa [joinWith] using he.gives_value hs [] false

/-! ## Several lines -/

variable {rest : Bytes} {l : Bool}

/-- A line about an entry. -/
theorem gives_line_found (hs : src.Supplies Due) {op : Opcode} {x : Option Stored}
    {i? : Option Item} (hx : Option.Rel (Shows p key) x i?) :
    Gives Due (Replying.line src op (Reading.value src p.payload))
      (found op (fun e => [e.value]) x ++ rest) l
      (.ok (some (i?.map fun i => .text i.text))) rest true := by
  cases hx with
  | none =>
    have hline : found op (fun e => [e.value]) none ++ rest =
        Replying.opening op statusFailed ++ lineEnd :: rest := by
      simp [found, failed_eq, show Bytes.ofString "" = [] from rfl]
    rw [hline]
    exact Replying.gives_line_failed hs
  | @some e i he =>
    have hline : found op (fun e => [e.value]) (some e) ++ rest =
        Replying.opening op statusOk ++ (e.value ++ lineEnd :: rest) := by
      simp [found, done_eq, joinWith]
    rw [hline]
    exact Replying.gives_line hs (he.gives_value hs rest false) (Reading.gives_finish_done src _)

/-- A line about an entry and its key. -/
theorem Listed.gives_line (hs : src.Supplies Due) {tag : String} {e : Bytes × Stored}
    (h : Listed p c tag e key) :
    Gives Due (Replying.line src .getPairsByTag (Replying.pair p.keys p.payload src))
      (done .getPairsByTag [e.1, e.2.value] ++ rest) l
      (.ok (some ((c.value? key).map (Pair.mk key)))) rest true := by
  obtain ⟨i, hi, htag, hshows⟩ := h.item
  have hline : done .getPairsByTag [e.1, e.2.value] ++ rest =
      Replying.opening .getPairsByTag statusOk ++
        (p.keys.encode key ++ fieldSeparator :: (e.2.value ++ lineEnd :: rest)) := by
    simp [done_eq, joinWith, h.bytes]
  have hcontained : Contained (p.keys.encode key) := (Entry.fits_key h.checked).2
  have hkey : Gives Due (Reading.string src p.keys)
      (p.keys.encode key ++ fieldSeparator :: (e.2.value ++ lineEnd :: rest)) false
      (Wire.string p.keys (p.keys.encode key)) (e.2.value ++ lineEnd :: rest) false :=
    Reading.gives_parsed hs _ hcontained.1 hcontained.2 (hshows.found (List.ne_nil_of_mem htag))
  rw [Wire.string_encode (Profile.encode_ne_absent h.checked)] at hkey
  rw [hline, Catalog.value?, hi]
  refine Replying.gives_line hs ?_ (Reading.gives_finish_done src _)
  exact hkey.bind ((hshows.gives_value hs rest false).bind (gives_pure _ _ _))

/-- The keys that carry a tag. -/
theorem gives_keysOf (hs : src.Supplies Due) {tag : String} {keys : List String}
    (h : List.Forall₂ (Listed p c tag) (m.tagged (Encoding.base64.encode tag)) keys) :
    Gives Due (Replying.getTagKeys p.keys src) (m.keysOf (Encoding.base64.encode tag)) true
      (.ok keys) [] true := by
  rw [keysOf]
  generalize m.tagged (Encoding.base64.encode tag) = es at h
  cases h with
  | nil =>
    exact gives_failed hs _ _ _ Replying.plaintext_empty
  | @cons e key es keys he hes =>
    have hall := List.Forall₂.cons he hes
    have hline : done .getTagKeys [joinWith listSeparator ((e :: es).map Prod.fst)] =
        Replying.opening .getTagKeys statusOk ++
          (joinWith listSeparator ((key :: keys).map p.keys.encode) ++ [lineEnd]) := by
      rw [map_fst_of_listed hall, done_eq, joinWith, List.flatMap_nil, List.append_nil]
    change Gives Due _ (done .getTagKeys [joinWith listSeparator ((e :: es).map Prod.fst)]) _ _ _ _
    rw [hline]
    refine Replying.gives_single hs ?_ (Reading.gives_finish_done src _)
    refine Reading.gives_itemsFrom hs (t := .line) rfl (List.cons_ne_nil _ _) [] fun key hkey => ?_
    obtain ⟨e, he⟩ := exists_of_listed hall key hkey
    exact he.item_encode

theorem reduceOption_map {β : Type} (f : α → Option β) (as : List α) :
    (as.map f).reduceOption = as.filterMap f := by
  rw [List.reduceOption, List.filterMap_map]
  rfl

/-- The values under several keys. -/
theorem Keeps.gives_valuesOf (h : m.Keeps p c) (hs : src.Supplies Due) (keys : List String) :
    Gives Due (Replying.getMulti p.payload src) (m.valuesOf (keys.map p.keys.encode)) true
      (.ok (keys.filterMap c.value?)) [] true := by
  rw [valuesOf, closing_eq, ← reduceOption_map]
  refine Replying.gives_several hs ?_
  rw [List.map_map, List.forall₂_map_left_iff, List.forall₂_map_right_iff, List.forall₂_same]
  exact fun key _ _ _ => gives_line_found hs (h.entry key)

/-- The keys that carry a tag and their values. -/
theorem gives_pairsOf (hs : src.Supplies Due) {tag : String} {keys : List String}
    (h : List.Forall₂ (Listed p c tag) (m.tagged (Encoding.base64.encode tag)) keys) :
    Gives Due (Replying.getPairsByTag p.keys p.payload src)
      (m.pairsOf (Encoding.base64.encode tag)) true
      (.ok (keys.filterMap fun key => (c.value? key).map (Pair.mk key))) [] true := by
  rw [pairsOf, closing_eq, ← reduceOption_map]
  refine Replying.gives_several hs ?_
  rw [List.forall₂_map_left_iff, List.forall₂_map_right_iff]
  exact h.imp fun _ _ he _ _ => he.gives_line hs

end Master

/-! ## Operations -/

namespace Operation

/-- Whether a request is answered as a catalog says: the reply is read as what the catalog gives,
and the node keeps what the catalog is afterwards. -/
structure Answered (p : Profile) (m : Master) (c : Catalog) (op : Operation α) (r : Request)
    (y : Except ClientError α) : Prop where
  answers : c.Answers p.keys op y
  settled : ∀ e, y = .error e → e.isTransient = false
  keeps : (m.perform r.opcode (r.fields.map Field.bytes)).2.Keeps p (c.after op)
  gives : ∀ {σ : Type} {src : Source σ} {Due : Bytes → σ → Prop}, src.Supplies Due →
    Gives Due (op.reply p src) (m.perform r.opcode (r.fields.map Field.bytes)).1 true y [] true

variable {value : Option Value} {token : String} {options : StoreOptions}

/-- What the node does with a request, put in other words. -/
theorem Answered.of_perform {op : Operation α} {r : Request} {y : Except ClientError α}
    {x : Bytes × Master} (hx : m.perform r.opcode (r.fields.map Field.bytes) = x)
    (answers : c.Answers p.keys op y) (settled : ∀ e, y = .error e → e.isTransient = false)
    (keeps : x.2.Keeps p (c.after op))
    (gives : ∀ {σ : Type} {src : Source σ} {Due : Bytes → σ → Prop}, src.Supplies Due →
      Gives Due (op.reply p src) x.1 true y [] true) :
    Answered p m c op r y := by
  subst hx
  exact ⟨answers, settled, keeps, gives⟩

theorem answered_set (h : m.Keeps p c) (hp : p.Ready) (hv : p.Admits key value options) :
    ∃ r y, (set key value options).request p = .ok r ∧
      Answered p m c (set key value options) r y := by
  obtain ⟨s, payload, rfl, hsize, hwrite, hshows⟩ := hv.write hp
  have hwritten : m.write .set (p.keys.encode key) _ _ = _ :=
    m.write_of_le (Field.list options.tags .base64).bytes hsize (by simp)
  exact ⟨_, .ok (), hwrite .set none, .of_perform hwritten rfl nofun
    (h.put hv.checked (congrArg (· + 1) h.version) (hshows _))
    fun hs => Master.gives_done hs .set () _⟩

theorem answered_add (h : m.Keeps p c) (hp : p.Ready) (hv : p.Admits key value options) :
    ∃ r y, (add key value options).request p = .ok r ∧
      Answered p m c (add key value options) r y := by
  obtain ⟨s, payload, rfl, hsize, hwrite, hshows⟩ := hv.write hp
  rcases h.cases_entry key with ⟨hstore, hitem⟩ | ⟨e, i, hstore, hitem, -⟩
  · have hfree : p.keys.encode key ∉ m.store := by
      rw [← Std.TreeMap.isSome_getElem?_iff_mem, hstore]
      simp
    have hwritten : m.write .add (p.keys.encode key) _ _ = _ :=
      m.write_of_le (Field.list options.tags .base64).bytes hsize fun hadd => hfree hadd.2
    refine ⟨_, .ok true, hwrite .add none, .of_perform hwritten ?_ nofun ?_ fun hs =>
      Master.gives_done hs .add true _⟩
    · rw [Catalog.Answers, hitem]
      rfl
    · simp only [Catalog.after, hitem]
      exact h.put hv.checked (congrArg (· + 1) h.version) (hshows _)
  · have htaken : p.keys.encode key ∈ m.store := by
      rw [← Std.TreeMap.isSome_getElem?_iff_mem, hstore]
      rfl
    have hwritten := m.write_of_mem (Field.list options.tags .base64).bytes hsize htaken
    refine ⟨_, .ok false, hwrite .add none, .of_perform hwritten ?_ nofun ?_ fun hs =>
      Master.gives_failed hs .add _ _ ⟨⟨by decide, by decide⟩, by decide, by decide⟩⟩
    · rw [Catalog.Answers, hitem]
      rfl
    · simp only [Catalog.after, hitem]
      exact h

theorem answered_setVersioned (h : m.Keeps p c) (hp : p.Ready)
    (htoken : Profile.checkVersion token = .ok ()) (hv : p.Admits key value options) :
    ∃ r y, (setVersioned key value token options).request p = .ok r ∧
      Answered p m c (setVersioned key value token options) r y := by
  obtain ⟨s, payload, rfl, -, hwrite, hshows⟩ := hv.write hp
  have hrequest : (setVersioned key (some (.text s)) token options).request p =
      p.write .setVersioned key (some (.text s)) (some token) options :=
    Profile.setVersioned_eq htoken key _ options
  have hreplaced := h.replace_eq key token (Field.list options.tags .base64).bytes
    (Field.blob payload).bytes
  refine ⟨_, _, hrequest.trans (hwrite .setVersioned (some token)),
    .of_perform hreplaced rfl ?_ ?_ fun hs => ?_⟩
  · intro e he
    split at he
    · cases he
    · cases he
      rfl
  · simp only [Catalog.after]
    split
    · exact h.put hv.checked (congrArg (· + 1) h.version) (hshows _)
    · exact h
  · split
    · exact Master.gives_done hs .setVersioned () _
    · exact Master.gives_failed hs .setVersioned _ _
        ⟨⟨by decide, by decide⟩, by decide, by decide⟩

theorem answered_get (h : m.Keeps p c) (hv : p.checkKey key = .ok ()) :
    ∃ r y, (get key).request p = .ok r ∧ Answered p m c (get key) r y := by
  have hrequest : (get key).request p = .ok ⟨.get, [.text (some key) p.keys]⟩ := by
    rw [request, Profile.get, hv]
    rfl
  exact ⟨_, _, hrequest, rfl, nofun, h, fun hs => Master.gives_found_value hs .get (h.entry key)⟩

theorem answered_getVersioned (h : m.Keeps p c) (hv : p.checkKey key = .ok ()) :
    ∃ r y, (getVersioned key).request p = .ok r ∧ Answered p m c (getVersioned key) r y := by
  have hrequest : (getVersioned key).request p =
      .ok ⟨.getVersioned, [.text (some key) p.keys]⟩ := by
    rw [request, Profile.getVersioned, hv]
    rfl
  refine ⟨_, _, hrequest, rfl, nofun, h, fun hs => ?_⟩
  exact Master.gives_found hs (h.entry key) (fun _ => List.cons_ne_nil _ _) fun e i he =>
    he.gives_versioned hs [] false

theorem answered_remove (h : m.Keeps p c) (hv : p.checkKey key = .ok ()) :
    ∃ r y, (remove key).request p = .ok r ∧ Answered p m c (remove key) r y := by
  have hrequest : (remove key).request p = .ok ⟨.remove, [.text (some key) p.keys, .number 0]⟩ := by
    rw [request, Profile.remove, hv]
    rfl
  exact ⟨_, _, hrequest, rfl, nofun, h.drop key,
    fun hs => Master.gives_found_value hs .remove (h.entry key)⟩

theorem answered_getMulti (h : m.Keeps p c) {keys : List String}
    (hv : ∀ key ∈ keys, p.checkKey key = .ok ()) :
    ∃ r y, (getMulti keys).request p = .ok r ∧ Answered p m c (getMulti keys) r y := by
  have hrequest : (getMulti keys).request p =
      .ok ⟨.getMulti, keys.map fun key => .text (some key) p.keys⟩ := by
    rw [request, Profile.getMulti, Profile.forM_of_forall hv]
    rfl
  refine ⟨_, _, hrequest, rfl, nofun, h, fun hs => ?_⟩
  change Gives _ _ (m.valuesOf _) _ _ _ _
  rw [List.map_map]
  exact h.gives_valuesOf hs keys

theorem answered_getTagKeys (h : m.Keeps p c) {tag : String} (includeDeleted : Bool)
    (hv : Profile.checkTag tag = .ok ()) :
    ∃ r y, (getTagKeys tag includeDeleted).request p = .ok r ∧
      Answered p m c (getTagKeys tag includeDeleted) r y := by
  obtain ⟨keys, hlists, hkeys⟩ := h.exists_listed tag
  have hrequest : (getTagKeys tag includeDeleted).request p =
      .ok ⟨.getTagKeys, [.text (some tag) .base64,
        .text (some (if includeDeleted then "true" else "false")) .raw]⟩ := by
    rw [request, Profile.getTagKeys, hv]
    rfl
  refine ⟨_, _, hrequest, ⟨keys, hlists, rfl⟩, nofun, h, fun hs => ?_⟩
  exact Master.gives_keysOf hs hkeys

theorem answered_getPairsByTag (h : m.Keeps p c) {tag : String}
    (hv : Profile.checkTag tag = .ok ()) :
    ∃ r y, (getPairsByTag tag).request p = .ok r ∧ Answered p m c (getPairsByTag tag) r y := by
  obtain ⟨keys, hlists, hkeys⟩ := h.exists_listed tag
  have hrequest : (getPairsByTag tag).request p =
      .ok ⟨.getPairsByTag, [.text (some tag) .base64]⟩ := by
    rw [request, Profile.getPairsByTag, hv]
    rfl
  refine ⟨_, _, hrequest, ⟨keys, hlists, rfl⟩, nofun, h, fun hs => ?_⟩
  exact Master.gives_pairsOf hs hkeys

/-- **A node that keeps a catalog answers as the catalog says.** -/
theorem exists_answered (h : m.Keeps p c) (hp : p.Ready) {op : Operation α} (hv : op.Valid p) :
    ∃ r y, op.request p = .ok r ∧ Answered p m c op r y := by
  cases op with
  | init | version => exact hv.elim
  | set => exact answered_set h hp hv
  | add => exact answered_add h hp hv
  | get => exact answered_get h hv
  | remove => exact answered_remove h hv
  | getTagKeys tag includeDeleted => exact answered_getTagKeys h includeDeleted hv
  | getVersioned => exact answered_getVersioned h hv
  | setVersioned => exact answered_setVersioned h hp hv.1 hv.2
  | getMulti => exact answered_getMulti h hv
  | getPairsByTag => exact answered_getPairsByTag h hv

end Operation

end TagStore
