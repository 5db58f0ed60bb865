import ProxyPlane.Proofs.Json.Record
import ProxyPlane.Record.Basic

/-!
# The JSON forms of records

What a store writes is read back as it was, if the numbers in it are ports and the instants have a
text that names them.

## What is here

* `RoutingRecord.HasPorts`: the ports of a record are ports; so it is of all records that are read
  (`RecordFile.hasPorts_of_decode`).
* `RecordFile.decode_pretty` and `AuditRow.decode_compact`: reading back a records file and a row of
  the audit.
-/

set_option autoImplicit false
namespace ProxyPlane

open Json

/-! ## Reading back -/

theorem PathRule.restores {r : PathRule} (h : r.forwardPort < portBound) :
    PathRule.codec.Restores r :=
  record_restores (by decide)
    (restoreAll_cons (Member.restore_needed (restores_string r.path))
      (restoreAll_cons (Member.restore_always (restores_string r.forwardScheme))
        (restoreAll_cons (Member.restore_needed (restores_string r.forwardHost))
          (restoreAll_cons (Member.restore_needed (restores_nat h))
            (restoreAll_nil _ _)))))
    (by simp [members, Member.needed, Member.always])

/-- The ports of a record and of its locations are ports. -/
structure RoutingRecord.HasPorts (r : RoutingRecord) : Prop where
  own : r.forwardPort < portBound
  locations : ∀ l ∈ r.locations, l.forwardPort < portBound

theorem RoutingRecord.restores {r : RoutingRecord} (h : r.HasPorts) :
    RoutingRecord.codec.Restores r :=
  record_restores (by decide)
    (restoreAll_cons (Member.restore_needed (restores_string r.id))
      (restoreAll_cons (Member.restore_always (restores_string r.name))
        (restoreAll_cons (Member.restore_needed (restores_string r.domainNames))
          (restoreAll_cons (Member.restore_always (restores_string r.forwardScheme))
            (restoreAll_cons (Member.restore_needed (restores_string r.forwardHost))
              (restoreAll_cons (Member.restore_needed (restores_nat h.own))
                (restoreAll_cons (Member.restore_always (restores_bool r.sslForced))
                  (restoreAll_cons (Member.restore_always (restores_bool r.hstsEnabled))
                    (restoreAll_cons (Member.restore_always (restores_bool r.hstsSubdomains))
                      (restoreAll_cons (Member.restore_always (restores_bool r.blockExploits))
                        (restoreAll_cons (Member.restore_always (restores_bool r.websocketSupport))
                          (restoreAll_cons (Member.restore_always (restores_bool r.enabled))
                            (restoreAll_cons
                              (Member.restore_always
                                (restores_list fun l hl => PathRule.restores (h.locations l hl)))
                              (restoreAll_nil _ _))))))))))))))
    (by simp [members, Member.needed, Member.always])

theorem RecordFile.restores {f : RecordFile} (h : ∀ r ∈ f.records, r.HasPorts) :
    RecordFile.codec.Restores f :=
  record_restores (by decide)
    (restoreAll_cons
      (Member.restore_always (restores_list fun r hr => RoutingRecord.restores (h r hr)))
      (restoreAll_cons (Member.restore_always (restores_dict fun e _ => restores_string e.2))
        (restoreAll_nil _ _)))
    (by simp [members, Member.always])

/-- The text of the instant names the instant. -/
def AuditRow.HasText (row : AuditRow) : Prop :=
  Instant.read? row.appliedAt.text = some row.appliedAt

theorem Instant.restores {t : Instant} (h : Instant.read? t.text = some t) :
    Instant.codec.Restores t := by
  have htext : Codec.string.read (Scan.ofJson (.string t.text)) = .ok t.text := rfl
  simp only [Codec.Restores, Codec.Reads, codec, htext, bind, Except.bind, h]

theorem AuditRow.restores {row : AuditRow} (h : row.HasText) : AuditRow.codec.Restores row :=
  record_restores (by decide)
    (restoreAll_cons (Member.restore_needed (restores_string row.configHash))
      (restoreAll_cons (Member.restore_needed (Instant.restores h))
        (restoreAll_cons (Member.restore_needed (restores_bool row.success))
          (restoreAll_cons (Member.restore_optional (fun s _ => ⟨restores_string s, nofun⟩) rfl)
            (restoreAll_nil _ _)))))
    (by simp [members, Member.needed, Member.always, Member.optional])

/-! ## How deep they are nested -/

section Depth

variable {d : Nat}

theorem fits_port {n : Nat} (h : n < portBound) : Fits d ((Codec.nat portBound).encode n) := by
  have hbounds : portBound ≤ Nat.pow 2 32 := by decide
  exact fits_nat (Nat.lt_of_lt_of_le h hbounds)

theorem PathRule.fits {r : PathRule} (h : r.forwardPort < portBound) :
    Fits (d + 1) (PathRule.codec.encode r) := by
  refine fits_record ?_
  simp only [members, List.forall_mem_cons]
  exact ⟨Member.fits_needed (.string _), Member.fits_always (.string _),
    Member.fits_needed (.string _), Member.fits_needed (fits_port h), List.forall_mem_nil _⟩

theorem RoutingRecord.fits {r : RoutingRecord} (h : r.HasPorts) :
    Fits (d + 3) (RoutingRecord.codec.encode r) := by
  refine fits_record ?_
  simp only [members, List.forall_mem_cons]
  exact ⟨Member.fits_needed (.string _), Member.fits_always (.string _),
    Member.fits_needed (.string _), Member.fits_always (.string _),
    Member.fits_needed (.string _), Member.fits_needed (fits_port h.own),
    Member.fits_always (.bool _), Member.fits_always (.bool _), Member.fits_always (.bool _),
    Member.fits_always (.bool _), Member.fits_always (.bool _), Member.fits_always (.bool _),
    Member.fits_always (fits_list fun l hl => PathRule.fits (h.locations l hl)),
    List.forall_mem_nil _⟩

theorem RecordFile.fits {f : RecordFile} (h : ∀ r ∈ f.records, r.HasPorts) :
    Fits (d + 5) (RecordFile.codec.encode f) := by
  refine fits_record ?_
  simp only [members, List.forall_mem_cons]
  exact ⟨Member.fits_always (fits_list fun r hr => RoutingRecord.fits (h r hr)),
    Member.fits_always (fits_dict fun e _ => .string e.2), List.forall_mem_nil _⟩

theorem AuditRow.fits (row : AuditRow) : Fits (d + 1) (AuditRow.codec.encode row) := by
  refine fits_record ?_
  simp only [members, List.forall_mem_cons]
  exact ⟨Member.fits_needed (.string _), Member.fits_needed (.string _),
    Member.fits_needed (.bool _), Member.fits_optional fun s _ => .string s,
    List.forall_mem_nil _⟩

end Depth

/-! ## Whole texts -/

/-- **A records file is read back as it was written.** -/
theorem RecordFile.decode_pretty {f : RecordFile} (h : ∀ r ∈ f.records, r.HasPorts) :
    RecordFile.codec.decode (RecordFile.codec.pretty f) = .ok f :=
  Json.decode_pretty (restores h) (fits (d := 122) h)

/-- **A row of the audit is read back as it was written.** -/
theorem AuditRow.decode_compact {row : AuditRow} (h : row.HasText) :
    AuditRow.codec.decode (AuditRow.codec.compact row) = .ok row :=
  Json.decode_compact (restores h) (fits (d := 126) row)

/-! ## What is read -/

theorem PathRule.yields : PathRule.codec.Yields fun r => r.forwardPort < portBound := by
  refine yields_record (by decide) ?_
  simp only [members, List.forall_mem_cons]
  exact ⟨Member.preserves_needed (yields_true _) fun _ _ _ h => h,
    Member.preserves_always (yields_true _) fun _ _ _ h => h,
    Member.preserves_needed (yields_true _) fun _ _ _ h => h,
    Member.preserves_needed (yields_nat _) fun _ _ h _ => h, List.forall_mem_nil _⟩

theorem RoutingRecord.yields : RoutingRecord.codec.Yields RoutingRecord.HasPorts := by
  refine yields_record ⟨by decide, List.forall_mem_nil _⟩ ?_
  simp only [members, List.forall_mem_cons]
  exact ⟨Member.preserves_needed (yields_true _) fun _ _ _ h => ⟨h.1, h.2⟩,
    Member.preserves_always (yields_true _) fun _ _ _ h => ⟨h.1, h.2⟩,
    Member.preserves_needed (yields_true _) fun _ _ _ h => ⟨h.1, h.2⟩,
    Member.preserves_always (yields_true _) fun _ _ _ h => ⟨h.1, h.2⟩,
    Member.preserves_needed (yields_true _) fun _ _ _ h => ⟨h.1, h.2⟩,
    Member.preserves_needed (yields_nat _) fun _ _ hport h => ⟨hport, h.2⟩,
    Member.preserves_always (yields_true _) fun _ _ _ h => ⟨h.1, h.2⟩,
    Member.preserves_always (yields_true _) fun _ _ _ h => ⟨h.1, h.2⟩,
    Member.preserves_always (yields_true _) fun _ _ _ h => ⟨h.1, h.2⟩,
    Member.preserves_always (yields_true _) fun _ _ _ h => ⟨h.1, h.2⟩,
    Member.preserves_always (yields_true _) fun _ _ _ h => ⟨h.1, h.2⟩,
    Member.preserves_always (yields_true _) fun _ _ _ h => ⟨h.1, h.2⟩,
    Member.preserves_always (yields_list PathRule.yields) fun _ _ hports h => ⟨h.1, hports⟩,
    List.forall_mem_nil _⟩

theorem RecordFile.yields : RecordFile.codec.Yields fun f => ∀ r ∈ f.records, r.HasPorts := by
  refine yields_record (List.forall_mem_nil _) ?_
  simp only [members, List.forall_mem_cons]
  exact ⟨Member.preserves_always (yields_list RoutingRecord.yields) fun _ _ hports _ => hports,
    Member.preserves_always (yields_true _) fun _ _ _ h => h, List.forall_mem_nil _⟩

/-- **The ports of all records of a file are ports**, whatever the file holds. -/
theorem RecordFile.hasPorts_of_decode {contents : Bytes} {f : RecordFile}
    (h : RecordFile.codec.decode contents = .ok f) : ∀ r ∈ f.records, r.HasPorts :=
  yields.of_decode h

end ProxyPlane
