import LinuxPtp.SuffixImage

/-!
# The parser accepts its grammar and stays inside the message

The verdict of `msg_post_recv` on any octets, the accesses it makes and the list
of TLVs it leaves. The octets behind the received ones are arbitrary.

The grammar is stated on the octets alone, so that who sends a message can be told what will be
accepted without reading the parser. Each direction is proved in its own module: an accepted
message is parsed without a fault, and what the parser gets through is in the grammar.
-/

namespace LinuxPtp

open Octets Recv

/-- The listed TLVs are those of the grammar, in the order of the wire. -/
structure Listed (data : Storage) (cnt : Nat) (msg : Message) : Prop where
  ordered : (msg.tlvList.map (·.tlv)).IsChain fun first next => next = tlvStop .big data first
  disjoint : (msg.tlvList.map (·.tlv)).Pairwise fun first later => tlvStop .big data first ≤ later
  inside : ∀ extra ∈ msg.tlvList, Admitted .big data cnt extra.tlv
  counted : msg.tlvCount = msg.tlvList.length

theorem accepted_listed (order : ByteOrder) (now : Int) {data : Storage} {cnt : Nat}
    {type : MsgType} {starts : List Nat} (accepted : Accepted data cnt type starts) :
    Listed data cnt (decoded order now type starts (Message.fresh data)) := by
  have named := decoded_starts order now type starts data
  have members : ∀ extra ∈ (decoded order now type starts (Message.fresh data)).tlvList,
      extra.tlv ∈ starts := fun extra member => by
    rw [← named]
    exact List.mem_map_of_mem member
  have suffix := accepted.suffix
  cases ptr : msgSuffix type with
  | none =>
    simp only [SuffixOf, ptr] at suffix
    subst suffix
    refine ⟨?_, ?_, fun extra member => absurd (members extra member) (by simp), rfl⟩
    · rw [named]
      exact List.IsChain.nil
    · rw [named]
      exact List.Pairwise.nil
  | some start =>
    simp only [SuffixOf, ptr] at suffix
    refine ⟨?_, ?_, fun extra member => (suffix_member suffix _ (members extra member)).2, ?_⟩
    · rw [named]
      exact (suffix_contiguous suffix).1
    · rw [named]
      exact suffix_disjoint suffix
    · simp [decoded, Message.fresh]

/-- `msg_post_recv` on any received octets. It touches nothing outside them, nor
outside the TLV it is parsing; it succeeds exactly on the messages of the
grammar, and then lists exactly their TLVs.

Proof: a message of the grammar is parsed step by step, and each step accesses only what the grammar
has found to be there. A message outside the grammar is refused at the first step that does not fit,
and until then the parser has not gone beyond its bounds either. -/
theorem msgPostRecv_grammar (order : ByteOrder) (now : Int) (cnt : Nat) (data : Storage) :
    (∀ access ∈ (final (msgPostRecv order now cnt (Message.fresh data))).touched,
      access.Bounded data cnt) ∧
    (∀ index, cnt ≤ index →
      (final (msgPostRecv order now cnt (Message.fresh data))).msg.data index = data index) ∧
    ((∃ reached, msgPostRecv order now cnt (Message.fresh data) = .ok () reached) ↔
      ∃ type starts, Accepted data cnt type starts) ∧
    ∀ reached, msgPostRecv order now cnt (Message.fresh data) = .ok () reached →
      ∃ type, Accepted data cnt type (reached.msg.tlvList.map (·.tlv)) ∧
        Listed data cnt reached.msg := by
  by_cases grammatical : ∃ type starts, Accepted data cnt type starts
  · obtain ⟨type, starts, accepted⟩ := grammatical
    obtain ⟨last, accesses, bounded, run⟩ :=
      msgPostRecv_accepted order now (Message.fresh data) accepted
    rw [run]
    refine ⟨bounded, fun index beyond => ?_, iff_of_true ⟨_, rfl⟩ ⟨type, starts, accepted⟩, ?_⟩
    · have kept := headed_beyond order type data (accepted.long.trans beyond)
      have suffix := accepted.suffix
      cases ptr : msgSuffix type with
      | none =>
        simp only [SuffixOf, ptr] at suffix
        subst suffix
        exact kept
      | some start =>
        simp only [SuffixOf, ptr] at suffix
        obtain rfl := msgSuffix_eq ptr
        exact (confined_outside (confined_tlvIn order) ((suffix_headed order).mpr suffix)
          (Or.inr beyond)).trans kept
    · rintro reached same
      obtain rfl := (EStateM.Result.ok.inj same).2
      refine ⟨type, ?_, accepted_listed order now accepted⟩
      rwa [decoded_starts]
  · obtain ⟨errno, reached, run, bounded, kept⟩ :=
      msgPostRecv_refused order now (Message.fresh data) grammatical
    rw [run]
    exact ⟨bounded, kept, iff_of_false (by simp) grammatical, by simp⟩

end LinuxPtp
