import ForeignCall.Session.Basic
import ForeignCall.Signature.Property
import ForeignCall.Value.Listing
import ForeignCall.Proofs.Layout.Earliest
import ForeignCall.Proofs.Value.Lens
import ForeignCall.Proofs.Value.Unpacking
import ForeignCall.Proofs.Session.Conservation
import ForeignCall.Proofs.Session.Atomicity
import ForeignCall.Proofs.Signature.Canonical
import ForeignCall.Proofs.Element.Verification
import ForeignCall.Proofs.Acceptance.Preorder
import ForeignCall.Proofs.Acceptance.Storing
import ForeignCall.Proofs.Layout.Representable
import ForeignCall.Proofs.Call.ReturnedReferences
import ForeignCall.Proofs.Encoding.Extent
import ForeignCall.Proofs.Encoding.Locality
import ForeignCall.Proofs.Signature.PropertyText
import ForeignCall.Proofs.Cache.Recency
import ForeignCall.Proofs.Cache.Unverified
import ForeignCall.Proofs.Encoding.Confinement
import ForeignCall.Proofs.Encoding.Positions
import ForeignCall.Proofs.Layout.FlexibleTail
import ForeignCall.Proofs.Layout.Lookup
import ForeignCall.Proofs.Ownership.Locality
import ForeignCall.Proofs.Value.Validity
