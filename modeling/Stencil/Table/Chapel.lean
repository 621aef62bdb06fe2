import Stencil.Table
import Stencil.Toml.Writer

/-!
# The Chapel packaging blocks

The built-in table: the parts of a Dockerfile that builds a Debian package of Chapel. Every block
begins and ends with a newline. Names after `$` are arguments of the container build and stay as
they are. The table comes as a document, which stands here line by line.
-/

namespace Stencil.Table

open Toml.Writer (Line Metadata)

/-- A block of the table, written between three single quotes. -/
def block (name text : String) : Line := .pair name.toList ⟨text.toList, true⟩

def chapelBlocks : List Line :=
  [ block "ARGUMENTS" r#"
ARG BASENAME=chapel
ARG CHAPEL_VERSION=2.0.0
ARG PACKAGE_VERSION=1
ARG OS_NAME
ARG DOCKER_DIR_NAME
ARG PARALLEL=1
ARG TARGETARCH
"#, .empty,
    block "USER_CREATION" r#"
RUN useradd -ms /bin/bash user && \
    usermod -aG sudo user && \
    echo "user:password" | chpasswd
USER user
WORKDIR /home/user
"#, .empty,
    block "GET_CHAPEL" r#"
COPY --chown=user ./tarballs/chapel-$CHAPEL_VERSION.tar.gz /home/user/chapel-$CHAPEL_VERSION.tar.gz
RUN tar xf chapel-$CHAPEL_VERSION.tar.gz
"#, .empty,
    block "BUILD_DEFAULT" r#"
WORKDIR /home/user/chapel-$CHAPEL_VERSION
RUN export CHPL_HOME=/home/user/chapel-$CHAPEL_VERSION && \
    rm -f $CHPL_HOME/chplconfig && touch $CHPL_HOME/chplconfig && \
    ./configure --prefix=/usr && \
    nice make all chpldoc mason chplcheck chpl-language-server -j$PARALLEL && \
    unset CHPL_HOME
"#, .empty,
    block "BUILD_GASNET_UDP" r#"
RUN export CHPL_HOME=/home/user/chapel-$CHAPEL_VERSION && \
    rm -f $CHPL_HOME/chplconfig && touch $CHPL_HOME/chplconfig && \
    echo "CHPL_COMM=gasnet" >> $CHPL_HOME/chplconfig && \
    ./configure --prefix=/usr && \
    nice make all chpldoc mason chplcheck chpl-language-server -j$PARALLEL && \
    unset CHPL_HOME
"#, .empty,
    .comment " TODO: drop CHPL_COMM_OFI_OOB=pmi2 once chapel-lang/chapel#25236 is resolved".toList,
    block "BUILD_OFI_SLURM" r#"
RUN export CHPL_HOME=/home/user/chapel-$CHAPEL_VERSION && \
    export CHPL_COMM_OFI_OOB=pmi2 && \
    rm -f $CHPL_HOME/chplconfig && touch $CHPL_HOME/chplconfig && \
    echo "CHPL_COMM=ofi" >> $CHPL_HOME/chplconfig && \
    echo "CHPL_LAUNCHER=slurm-srun" >> $CHPL_HOME/chplconfig && \
    echo "CHPL_COMM_OFI_OOB=pmi2" >> $CHPL_HOME/chplconfig && \
    echo "CHPL_LIBFABRIC=bundled" >> $CHPL_HOME/chplconfig && \
    ./configure --prefix=/usr && \
    nice make all chpldoc mason chplcheck chpl-language-server -j$PARALLEL && \
    unset CHPL_HOME && unset CHPL_COMM_OFI_OOB
"#, .empty,
    block "INSTALL" r#"
USER root
RUN make install
USER user
"#, .empty,
    block "PACKAGE_SETUP" r#"
WORKDIR /home/user

COPY --chown=user ./apt/$DOCKER_DIR_NAME/control.template /home/user/control.template
COPY --chown=user ./apt/common/make_dirs.py /home/user/make_dirs.py
COPY --chown=user ./common/package_name.py /home/user/package_name.py
RUN python3 make_dirs.py $BASENAME $CHAPEL_VERSION $PACKAGE_VERSION $OS_NAME $TARGETARCH

COPY --chown=user ./common/fixpaths.py /home/user/fixpaths.py
USER root
RUN python3 fixpaths.py $BASENAME $CHAPEL_VERSION $PACKAGE_VERSION $OS_NAME $TARGETARCH
USER user

COPY --chown=user ./apt/common/copy_files.py /home/user/copy_files.py
RUN python3 copy_files.py $BASENAME $CHAPEL_VERSION $PACKAGE_VERSION $OS_NAME $TARGETARCH
"#, .empty,
    block "PACKAGE_BUILD" r#"
WORKDIR /home/user
RUN dpkg-deb --build $(python3 package_name.py $BASENAME $CHAPEL_VERSION $PACKAGE_VERSION $OS_NAME $TARGETARCH)

FROM scratch as artifact
COPY --from=build /home/user/*.deb /

FROM build as release
"# ]

def chapelMetadata : Metadata where
  name := some ⟨"chapel-apt".toList, false⟩
  description := some ⟨"Dockerfile blocks for building Chapel .deb packages".toList, false⟩

/-- The lines of the document of the table. -/
def chapelLines : List Line :=
  .empty :: Line.ofSection "metadata".toList chapelMetadata.pairs ++
    .empty :: .title "substitutions".toList :: chapelBlocks

def chapelDocument : Text := Line.renderAll chapelLines

def chapel : Table where
  name := chapelMetadata.name.map (·.text)
  description := chapelMetadata.description.map (·.text)
  entries := Std.ExtTreeMap.ofList (Line.leadingPairs chapelBlocks)
  isIdentifier_of_mem := by
    have names_ok : ∀ k ∈ (Line.leadingPairs chapelBlocks).map Prod.fst, isIdentifier k = true := by
      decide
    intro k hk
    exact names_ok k (by simpa [Std.ExtTreeMap.mem_ofList] using hk)

end Stencil.Table
