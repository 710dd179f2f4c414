import ChannelConcat.Proofs.Acceptance
import ChannelConcat.Proofs.Agreement
import ChannelConcat.Proofs.Faults
import ChannelConcat.Proofs.Generation
import ChannelConcat.Proofs.Sharing
import ChannelConcat.Proofs.Accounting
import ChannelConcat.Proofs.Outcomes
import ChannelConcat.Proofs.Interleaving
import ChannelConcat.Proofs.RowCalls
import ChannelConcat.Proofs.Defects
import ChannelConcat.Proofs.KernelChoice
import ChannelConcat.Proofs.AllOrNothing
import ChannelConcat.Proofs.SharedCode
import ChannelConcat.Proofs.Listings
import ChannelConcat.Proofs.RepeatedCalls
import ChannelConcat.Proofs.Convention
import ChannelConcat.Proofs.Stages
import ChannelConcat.Proofs.Program.Branches
import ChannelConcat.Proofs.CacheHistory
import ChannelConcat.Proofs.OptionReading
import ChannelConcat.Proofs.Clamps
